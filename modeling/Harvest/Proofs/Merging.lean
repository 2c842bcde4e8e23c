import Mathlib
import Harvest.Proofs.Plan
import Harvest.Proofs.Registry

namespace Harvest

open Config

namespace Endpoint

theorem Fits.objects {name : String} (a b : Fields) (fits : Fits name (.obj a)) :
    Fits name (.obj b) := by
  unfold Fits at fits ⊢
  split at fits <;> simp_all [Field.flag]

theorem Fits.given {name : String} {v : Value} (fits : Fits name v) : Fits name v.given := by
  cases v with
  | obj members => exact fits.objects _ _
  | arr | record =>
    unfold Fits at fits ⊢
    split at fits <;> simp_all [Field.flag]
  | _ => exact fits

theorem Settings.members_fit (s : Settings) : ∀ m ∈ s.members, Fits m.1 m.2 := by
  obtain ⟨queryArgs, headers, body, omitBody, pagination⟩ := s
  simp only [members, List.forall_mem_cons, Fits, true_and]
  refine ⟨?_, ?_, ?_, ?_, by simp⟩
  · cases queryArgs <;> simp [Value.ofOption]
  · cases headers <;> simp [Value.ofOption]
  · cases omitBody <;> simp [Value.ofOption, Field.flag]
  · cases pagination <;> simp [Value.ofOption]

theorem Target.sound_of_read {v : Value} {target : Given Target}
    (proper : ∀ other members names, v = .record other members names →
      ∀ m ∈ members, m.1 ∈ other.memberNames)
    (h : Target.read v = .ok target) :
    target.Sound .endpointTarget ∧ target.value.path ≠ "" := by
  refine ⟨Given.sound_of_readClosed proper h, ?_⟩
  obtain ⟨members, built⟩ := Given.built_of_readClosed h
  obtain ⟨-, path, -⟩ := Target.build_eq_ok built
  obtain ⟨given, fits⟩ := Field.accepted_required.1 ⟨_, path⟩
  obtain ⟨v, found⟩ := Option.isSome_iff_exists.1 given
  obtain ⟨s, rfl, nonempty⟩ := Field.accepted_name.1 (fits v found)
  rw [Field.name_eq_ok ((Field.required_eq_ok found).1 path)]
  exact nonempty

end Endpoint

theorem Value.mem_givenParts {kind : Kind} {names : List String} {ms : Fields} {m : String × Value}
    (member : m ∈ givenParts kind names ms) :
    ∃ v, (m.1, v) ∈ ms ∧ m.2 = kind.cut m.1 v.given := by
  induction ms with
  | nil => cases member
  | cons first rest ih =>
    obtain ⟨k, v⟩ := first
    have later (there : m ∈ givenParts kind names rest) :
        ∃ w, (m.1, w) ∈ (k, v) :: rest ∧ m.2 = kind.cut m.1 w.given := by
      obtain ⟨w, inside, same⟩ := ih there
      exact ⟨w, List.mem_cons_of_mem _ inside, same⟩
    unfold givenParts at member
    split at member
    · rcases List.mem_cons.1 member with rfl | there
      · exact ⟨v, List.mem_cons_self, rfl⟩
      · exact later there
    · exact later member

namespace Plan

def fixedNames : List String :=
  ["path", "method", "client", "pagination", "readonly"]

/-- A member that cannot spoil an endpoint: one that the ranks may not change, or one that fits. -/
def Harmless (name : String) (v : Value) : Prop :=
  name ∈ fixedNames ∨ Endpoint.Fits name v

theorem Harmless.objects (name : String) (a b : Fields) (harmless : Harmless name (.obj a)) :
    Harmless name (.obj b) :=
  harmless.imp_right (·.objects a b)

theorem cut_eq_self {kind other : Kind} (endpoint : kind = .endpointEntry ∨ kind = .endpointTarget)
    (narrows : other.narrows kind = true) (name : String) (v : Value) : other.cut name v = v := by
  rcases endpoint with rfl | rfl <;> cases other <;> first | rfl | cases narrows

theorem further_eq_readonly {kind other : Kind}
    (endpoint : kind = .endpointEntry ∨ kind = .endpointTarget)
    (narrows : other.narrows kind = true) {name : String} (inside : name ∈ other.memberNames)
    (further : name ∉ kind.memberNames) : name = "readonly" := by
  rcases endpoint with rfl | rfl <;> cases other <;>
    simp_all [Kind.narrows, Kind.memberNames, Kind.memberNames.target, Kind.memberNames.settings]

theorem harmless_of_given {α : Type} {kind : Kind} {g : Given α} {write : α → Fields}
    (endpoint : kind = .endpointEntry ∨ kind = .endpointTarget) (sound : g.Sound kind)
    (own : ∀ m ∈ write g.value, Harmless m.1 m.2) :
    ∀ m ∈ g.given write, Harmless m.1 m.2 := by
  intro m member
  obtain ⟨v, here, same⟩ := Value.mem_givenParts member
  rw [cut_eq_self endpoint sound.narrows] at same
  rw [same]
  rcases List.mem_append.1 here with written | further
  · exact (own _ written).imp_right Endpoint.Fits.given
  · obtain ⟨inside, outside⟩ := sound.further _ further
    rw [further_eq_readonly endpoint sound.narrows inside outside]
    exact .inl (by decide)

theorem harmless_of_entry {entry : Given Endpoint.Entry} (sound : entry.Sound .endpointEntry) :
    ∀ m ∈ entry.given Endpoint.Entry.members, Harmless m.1 m.2 := by
  apply harmless_of_given (.inl rfl) sound
  intro m member
  rcases List.mem_append.1 member with settings | own
  · exact .inr (entry.value.members_fit m settings)
  · rw [List.mem_singleton.1 own]
    exact .inl (by simp [fixedNames])

theorem harmless_of_target {target : Given Endpoint.Target} (sound : target.Sound .endpointTarget) :
    ∀ m ∈ target.given Endpoint.Target.members, Harmless m.1 m.2 := by
  apply harmless_of_given (.inr rfl) sound
  intro m member
  rcases List.mem_append.1 member with settings | own
  · exact .inr (target.value.members_fit m settings)
  · simp only [List.mem_cons, List.not_mem_nil, or_false] at own
    rcases own with rfl | rfl | rfl <;> exact .inl (by simp [fixedNames])

section Ranks

variable {client : String} {target : Given Endpoint.Target} {entry : Given Endpoint.Entry}
  {pagination : Pagination.Definition}

theorem harmless_ranks (targetSound : target.Sound .endpointTarget)
    (entrySound : entry.Sound .endpointEntry)
    (settings : ∀ m ∈ pagination.clientArgs, Harmless m.1 m.2) :
    ∀ m ∈ ranks target entry pagination, Harmless m.1 m.2 := by
  apply flatten_all Harmless.objects
  intro layer member
  simp only [List.mem_cons, List.not_mem_nil, or_false] at member
  rcases member with rfl | rfl | rfl
  · exact settings
  · exact fun m member => harmless_of_entry entrySound m (List.mem_of_mem_filter member)
  · exact harmless_of_target targetSound

theorem fixed_fit (path : target.value.path ≠ "") :
    ∀ m ∈ fixed client target entry pagination, Endpoint.Fits m.1 m.2 := by
  simp [fixed, Endpoint.Fits, Value.ofMethod, Method.ofName?_name, Field.flag, path]

theorem valid_merged (path : target.value.path ≠ "")
    (harmless : ∀ m ∈ ranks target entry pagination, Harmless m.1 m.2) :
    Endpoint.Valid (merged client target entry pagination) where
  path := by
    rw [Members.has, get?_merged_of_fixed rfl]
    rfl
  fits name v found := by
    cases written : Members.get? (fixed client target entry pagination) name with
    | some w =>
      rw [get?_merged_of_fixed written] at found
      obtain rfl := Option.some.inj found
      exact fixed_fit path _ (Members.mem_of_get? written)
    | none =>
      have unfixed : name ∉ fixedNames := Members.get?_eq_none_iff.1 written
      rw [get?_merged_of_open written] at found
      exact (harmless _ (Members.mem_of_get? found)).resolve_left unfixed

end Ranks

section Outcome

variable (definitions : Registry.Definitions) (request : Request)

def entryOf? : Option (Given Endpoint.Entry) :=
  definitions.queryEndpoint (clientAsked definitions request.target.value) request.target.value.path
    request.target.value.method

def pagination? (entry : Given Endpoint.Entry) : Option Pagination.Definition :=
  match paginationAsked? request.target.value entry.value with
  | none => some .single
  | some id => Members.get? definitions.paginations.definitions id

/-- What becomes of a request to the given client. No two cases can be met at once. -/
inductive Outcome (client : String) : Except Failure Plan → Prop where
  | unregistered (missing : entryOf? definitions request = none) :
    Outcome client (.error (.definition (.endpointNotFound client request.target.value.path
      request.target.value.method.name)))
  | notReadonly {entry} (found : entryOf? definitions request = some entry)
      (writing : entry.value.readonly = false) :
    Outcome client (.error (.definition (.endpointNotReadonly client request.target.value.path
      request.target.value.method.name)))
  | unpaginated {entry id} (found : entryOf? definitions request = some entry)
      (readonly : entry.value.readonly = true)
      (asked : paginationAsked? request.target.value entry.value = some id)
      (unknown : id ∉ definitions.paginations.ids) :
    Outcome client (.error (.definition (.paginationNotFound (.str id))))
  | invalid {entry pagination issues} (found : entryOf? definitions request = some entry)
      (readonly : entry.value.readonly = true)
      (paginated : pagination? definitions request entry = some pagination)
      (unfit : ¬ Endpoint.Valid (merged client request.target entry pagination))
      (reported : Endpoint.Resolved.read (.obj (merged client request.target entry pagination)) =
        .rejected issues) :
    Outcome client (.error (.definition (.invalid ("merged endpoint " ++ Harvest.endpointId client
      request.target.value.path request.target.value.method.name) issues)))
  | bound {entry pagination} (found : entryOf? definitions request = some entry)
      (readonly : entry.value.readonly = true)
      (paginated : pagination? definitions request entry = some pagination)
      (valid : Endpoint.Valid (merged client request.target entry pagination)) :
    Outcome client (.ok (ofRanks request client entry pagination))

variable {definitions request}

section Entries

variable {client : String} {target : Endpoint.Target} {entry : Given Endpoint.Entry}

theorem entryFor_of_missing
    (missing : definitions.queryEndpoint client target.path target.method = none) :
    (entryFor definitions client target).result =
      .error (.definition (.endpointNotFound client target.path target.method.name)) := by
  simp only [entryFor, missing]
  rfl

theorem entryFor_of_writing
    (found : definitions.queryEndpoint client target.path target.method = some entry)
    (writing : entry.value.readonly = false) :
    (entryFor definitions client target).result =
      .error (.definition (.endpointNotReadonly client target.path target.method.name)) := by
  simp only [entryFor, found, writing]
  rfl

theorem entryFor_of_readonly
    (found : definitions.queryEndpoint client target.path target.method = some entry)
    (readonly : entry.value.readonly = true) :
    (entryFor definitions client target).result = .ok entry := by
  simp only [entryFor, found, readonly]
  rfl

end Entries

theorem lookup_of_known {entry : Given Endpoint.Entry} {pagination : Pagination.Definition}
    (paginated : pagination? definitions request entry = some pagination) :
    (definitions.paginations.lookup (paginationId request.target.value entry.value)).result =
      .ok pagination := by
  unfold pagination? at paginated
  rw [paginationId_eq]
  split at paginated
  next none =>
    obtain rfl := Option.some.inj paginated
    rw [none]
    rfl
  next id asked =>
    rw [asked, Value.ofOption, Pagination.Table.result_lookup_text, paginated]
    rfl

theorem lookup_of_unknown {entry : Given Endpoint.Entry} {id : String}
    (asked : paginationAsked? request.target.value entry.value = some id)
    (unknown : id ∉ definitions.paginations.ids) :
    (definitions.paginations.lookup (paginationId request.target.value entry.value)).result =
      .error (.definition (.paginationNotFound (.str id))) := by
  have missing : Members.get? definitions.paginations.definitions id = none :=
    Members.get?_eq_none_iff.2 unknown
  rw [paginationId_eq, asked, Value.ofOption, Pagination.Table.result_lookup_text,
    missing]
  rfl

section Settled

variable {entry : Given Endpoint.Entry} {pagination : Pagination.Definition}
  (found : entryOf? definitions request = some entry) (readonly : entry.value.readonly = true)
  (paginated : pagination? definitions request entry = some pagination)

include found readonly paginated

theorem make_of_accepted {g : Given Endpoint.Resolved}
    (read : Endpoint.Resolved.read (.obj (merged (clientAsked definitions request.target.value)
      request.target entry pagination)) = .ok g) :
    (make definitions request).result =
      .ok (ofRanks request (clientAsked definitions request.target.value) entry pagination) := by
  simp only [make, clientOf_eq_clientAsked]
  rw [Noted.result_bind_of_ok (entryFor_of_readonly found readonly),
    Noted.result_bind_of_ok (lookup_of_known paginated)]
  simp only [read]
  rw [read_merged read, call_resolved]
  rfl

theorem make_of_rejected {issues : List Issue}
    (read : Endpoint.Resolved.read (.obj (merged (clientAsked definitions request.target.value)
      request.target entry pagination)) = .rejected issues) :
    (make definitions request).result = .error (.definition (.invalid ("merged endpoint " ++
      Harvest.endpointId (clientAsked definitions request.target.value) request.target.value.path
        request.target.value.method.name) issues)) := by
  simp only [make, clientOf_eq_clientAsked]
  rw [Noted.result_bind_of_ok (entryFor_of_readonly found readonly),
    Noted.result_bind_of_ok (lookup_of_known paginated)]
  simp only [read]
  rfl

end Settled

theorem Outcome.result {r : Except Failure Plan}
    (outcome : Outcome definitions request (clientAsked definitions request.target.value) r) :
    (make definitions request).result = r := by
  cases outcome with
  | unregistered missing =>
    simp only [make, clientOf_eq_clientAsked]
    exact Noted.result_bind_of_error (entryFor_of_missing missing)
  | notReadonly found writing =>
    simp only [make, clientOf_eq_clientAsked]
    exact Noted.result_bind_of_error (entryFor_of_writing found writing)
  | unpaginated found readonly asked unknown =>
    simp only [make, clientOf_eq_clientAsked]
    rw [Noted.result_bind_of_ok (entryFor_of_readonly found readonly)]
    exact Noted.result_bind_of_error (lookup_of_unknown asked unknown)
  | invalid found readonly paginated unfit reported =>
    exact make_of_rejected found readonly paginated reported
  | bound found readonly paginated valid =>
    obtain ⟨g, read⟩ := Endpoint.Resolved.accepted_read.2 valid
    exact make_of_accepted found readonly paginated read

theorem unknown_of_unpaginated {entry : Given Endpoint.Entry}
    (missing : pagination? definitions request entry = none) :
    ∃ id, paginationAsked? request.target.value entry.value = some id ∧
      id ∉ definitions.paginations.ids := by
  unfold pagination? at missing
  split at missing
  next => cases missing
  next id asked => exact ⟨id, asked, Members.get?_eq_none_iff.1 missing⟩

theorem exists_outcome (definitions : Registry.Definitions) (request : Request) :
    ∃ r, Outcome definitions request (clientAsked definitions request.target.value) r := by
  cases found : entryOf? definitions request with
  | none => exact ⟨_, .unregistered found⟩
  | some entry =>
    cases readonly : entry.value.readonly with
    | false => exact ⟨_, .notReadonly found readonly⟩
    | true =>
      cases paginated : pagination? definitions request entry with
      | none =>
        obtain ⟨id, asked, unknown⟩ := unknown_of_unpaginated paginated
        exact ⟨_, .unpaginated found readonly asked unknown⟩
      | some pagination =>
        cases read : Endpoint.Resolved.read (.obj (merged
            (clientAsked definitions request.target.value) request.target entry pagination)) with
        | ok g =>
          have valid := Endpoint.Resolved.accepted_read.1 ⟨g, read⟩
          exact ⟨_, .bound found readonly paginated valid⟩
        | rejected issues =>
          refine ⟨_, .invalid found readonly paginated (fun valid => ?_) read⟩
          obtain ⟨g, accepted⟩ := Endpoint.Resolved.accepted_read.2 valid
          rw [accepted] at read
          cases read

theorem harmless_of_settings {ms : Fields} (distinct : (Members.keys ms).Nodup)
    (accepted : (Endpoint.Settings.read (.obj ms)).Accepted) : ∀ m ∈ ms, Harmless m.1 m.2 :=
  fun m member => .inr (Endpoint.Settings.fits_of_accepted distinct accepted m member).2

/-- A request comes to what the checks say in their order, and to nothing else. Where its pagination
is known, only settings of the pagination that would not be accepted by themselves can make its
endpoint invalid. -/
theorem make_outcome (definitions : Registry.Definitions) (request : Request) :
    (∀ r, (make definitions request).result = r ↔
      Outcome definitions request (clientAsked definitions request.target.value) r) ∧
    (request.target.Sound .endpointTarget → request.target.value.path ≠ "" →
      ∀ entry pagination, entryOf? definitions request = some entry → entry.Sound .endpointEntry →
        entry.value.readonly = true → pagination? definitions request entry = some pagination →
        (Members.keys pagination.clientArgs).Nodup →
        (Endpoint.Settings.read (.obj pagination.clientArgs)).Accepted →
        (make definitions request).result =
          .ok (ofRanks request (clientAsked definitions request.target.value) entry pagination)) := by
  refine ⟨fun r => ⟨?_, Outcome.result⟩, ?_⟩
  · rintro rfl
    obtain ⟨r, outcome⟩ := exists_outcome definitions request
    rwa [outcome.result]
  · intro target path entry pagination found entrySound readonly paginated distinct accepted
    have harmless := harmless_ranks target entrySound (harmless_of_settings distinct accepted)
    exact (Outcome.bound found readonly paginated (valid_merged path harmless)).result

end Outcome

def layeredConfig : Value :=
  .obj [("clients", .obj [("default", .str "main"), ("options", .obj [
      ("main", .obj [("endpoints", .obj [("customizations", .obj [("/b", .obj [("get",
        .obj [("readonly", .bool true), ("pagination", .str "pages")])])])])]),
      ("side", .obj [("endpoints", .obj [("customizations", .obj [("/a", .obj [("get",
        .obj [("readonly", .bool true), ("pagination", .str "none"), ("omit_body", .bool false),
          ("body", .str "all"),
          ("query_args", .obj [("limit", .int 20), ("q", .null)])])])])])])])]),
    ("requests", .obj []),
    ("pagination", .obj [("pages", .obj [("type", .str "page_number"),
      ("client_args", .obj [("query_args", .obj [("limit", .int 50), ("q", .int 1)]),
        ("omit_body", .str "yes")])])])]

def layeredTarget : Value :=
  .obj [("path", .str "/a"), ("client", .str "side"), ("pagination", .str "pages"),
    ("query_args", .obj [("x", .int 2)]), ("body", .null)]

def layeredPagination : Pagination.Definition :=
  ⟨"pages", .numbered (.str "page") .null (.int 1),
    [("query_args", .obj [("limit", .int 50), ("q", .int 1)]), ("omit_body", .str "yes")]⟩

def layeredEntry : Given Endpoint.Entry :=
  ⟨⟨⟨some [("limit", .int 20)], none, .str "all", some false, some "none"⟩, true⟩,
    .endpointEntry, [], ["query_args", "body", "omit_body", "pagination", "readonly"]⟩

def blankEntry : Given Endpoint.Entry :=
  ⟨⟨⟨none, none, .null, none, some "pages"⟩, true⟩, .endpointEntry, [], ["pagination", "readonly"]⟩

def layeredDefinitions : Registry.Definitions where
  adapterName := .str "unknown"
  defaultClient := "main"
  clients := [("main", ⟨[(("/b", .get), blankEntry)]⟩), ("side", ⟨[(("/a", .get), layeredEntry)]⟩)]
  requests := .empty
  paginations := ⟨[("pages", layeredPagination), ("none", .single)]⟩

def layeredRequest : Request :=
  ⟨⟨⟨⟨some [("x", .int 2)], none, .null, none, some "pages"⟩, "/a", .get, some "side"⟩,
    .endpointTarget, [], ["query_args", "body", "pagination", "path", "client"]⟩,
    Transformation.plain, []⟩

def blankTarget : Value :=
  .obj [("path", .str "/b"), ("client", .str ""), ("pagination", .str "")]

def blankRequest : Request :=
  ⟨⟨⟨⟨none, none, .null, none, some ""⟩, "/b", .get, some ""⟩,
    .endpointTarget, [], ["pagination", "path", "client"]⟩, Transformation.plain, []⟩

theorem layered_outcome :
    Registry.Definitions.read ["main", "side"] layeredConfig = .ok layeredDefinitions ∧
    Endpoint.Target.read layeredTarget = .ok layeredRequest.target ∧
    (make layeredDefinitions layeredRequest).result =
      .ok (ofRanks layeredRequest "side" layeredEntry layeredPagination) ∧
    (ofRanks layeredRequest "side" layeredEntry layeredPagination).call =
      ⟨"/a", .get, [("limit", .int 20), ("q", .int 1), ("x", .int 2)], [], .str "all"⟩ ∧
    Endpoint.Target.read blankTarget = .ok blankRequest.target ∧
    (make layeredDefinitions blankRequest).result =
      .ok (ofRanks blankRequest "main" blankEntry layeredPagination) := by
  have config : Registry.Definitions.read ["main", "side"] layeredConfig =
      .ok layeredDefinitions := by cbv
  have asked : Endpoint.Target.read layeredTarget = .ok layeredRequest.target := by cbv
  have blank : Endpoint.Target.read blankTarget = .ok blankRequest.target := by cbv
  have settings : (Endpoint.Settings.read (.obj layeredPagination.clientArgs)).Accepted :=
    ⟨⟨⟨some [("limit", .int 50), ("q", .int 1)], none, .null, some true, none⟩,
      .endpointSettings, [], ["query_args", "omit_body"]⟩, by cbv⟩
  have laid : ranks layeredRequest.target layeredEntry layeredPagination =
      [("query_args", .obj [("limit", .int 20), ("q", .int 1), ("x", .int 2)]),
        ("omit_body", .bool false), ("body", .str "all"), ("pagination", .str "pages"),
        ("path", .str "/a"), ("client", .str "side")] := by
    cbv
  refine ⟨config, asked, ?_, by simp only [ofRanks, templated, laid]; rfl, blank, ?_⟩
  · obtain ⟨target, path⟩ := Endpoint.Target.sound_of_read (by rintro _ _ _ ⟨⟩) asked
    have found : entryOf? layeredDefinitions layeredRequest = some layeredEntry := by cbv
    have paginated : pagination? layeredDefinitions layeredRequest layeredEntry =
        some layeredPagination := by cbv
    exact (make_outcome layeredDefinitions layeredRequest).2 target path layeredEntry
      layeredPagination found (Registry.Definitions.sound_of_query config found) rfl paginated
      (by decide) settings
  · obtain ⟨target, path⟩ := Endpoint.Target.sound_of_read (by rintro _ _ _ ⟨⟩) blank
    have found : entryOf? layeredDefinitions blankRequest = some blankEntry := by cbv
    have paginated : pagination? layeredDefinitions blankRequest blankEntry =
        some layeredPagination := by cbv
    exact (make_outcome layeredDefinitions blankRequest).2 target path blankEntry
      layeredPagination found (Registry.Definitions.sound_of_query config found) rfl paginated
      (by decide) settings

end Plan

end Harvest
