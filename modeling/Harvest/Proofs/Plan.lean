import Harvest.Fetch
import Harvest.Proofs.Outcomes
import Harvest.Proofs.Overlay

namespace Harvest

open Config

namespace Config

def objectUnder? (ms : Fields) (name : String) : Option Fields :=
  match Members.get? ms name with
  | some (.obj members) => some members
  | _ => none

def flagUnder? (ms : Fields) (name : String) : Option Bool :=
  match (Members.get? ms name).map Field.flag with
  | some (.ok b) => some b
  | _ => none

theorem objectUnder?_getD (ms : Fields) (name : String) :
    (objectUnder? ms name).getD [] = membersUnder ms name := by
  unfold objectUnder? membersUnder
  cases Members.get? ms name with
  | none => rfl
  | some v => cases v <;> rfl

end Config

namespace Config.Field

variable {α : Type} {ms : Fields} {key : String} {v : Value} {a : α} {default : α}
  {read : Value → Checked α}

theorem required_eq_ok (given : Members.get? ms key = some v) :
    required ms key read = .ok a ↔ read v = .ok a := by
  simp only [required, given, Checked.under_eq_ok]

theorem optional_eq_ok (given : Members.get? ms key = some v) :
    optional ms key default read = .ok a ↔ read v = .ok a := by
  simp only [optional, given, Checked.under_eq_ok]

theorem name_eq_ok {s t : String} (h : name (.str s) = .ok t) : t = s := by
  unfold name at h
  by_cases blank : (s == "") = true
  · simp [blank, refuse] at h
  · simp only [blank] at h
    exact (Checked.ok.inj h).symm

theorem method_eq_ok {m n : Method} (h : method (.ofMethod m) = .ok n) : n = m := by
  simp only [Value.ofMethod, method, Method.ofName?_name] at h
  exact (Checked.ok.inj h).symm

theorem text_eq_ok {s : String} {t : Option String} (h : orNull text (.str s) = .ok t) :
    t = some s :=
  (Checked.ok.inj h).symm

theorem any_eq_ok {w : Value} (h : optional ms key .null any = .ok w) :
    w = (Members.get? ms key).getD .null := by
  unfold optional at h
  split at h
  next found => simpa [found, any, eq_comm] using Checked.under_eq_ok.1 h
  next missing => simpa [missing, eq_comm] using h

theorem object_eq_ok {members : Option Fields}
    (h : optional ms key none (orNull object) = .ok members) : members = objectUnder? ms key := by
  unfold optional at h
  unfold objectUnder?
  split at h
  next v found =>
    rw [Checked.under_eq_ok] at h
    rw [found]
    cases v <;> simp_all [orNull, object, refuse, Checked.map]
  next missing => simpa [missing, eq_comm] using h

theorem flag_eq_ok {b : Option Bool} (h : optional ms key none (orNull flag) = .ok b) :
    b = flagUnder? ms key := by
  unfold optional at h
  unfold flagUnder?
  split at h
  next v found =>
    rw [Checked.under_eq_ok] at h
    rw [found, Option.map_some]
    cases read : flag v with
    | ok c => cases v <;> simp_all [orNull, Checked.map, flag, refuse]
    | rejected issues => cases v <;> simp_all [orNull, Checked.map]
  next missing => simpa [missing, eq_comm] using h

end Config.Field

namespace Endpoint

theorem Settings.fields_of_build {ms : Fields} {s : Settings} (h : Settings.build ms = .ok s) :
    Field.optional ms "query_args" none (Field.orNull Field.object) = .ok s.queryArgs ∧
      Field.optional ms "headers" none (Field.orNull Field.object) = .ok s.headers ∧
      Field.optional ms "body" .null Field.any = .ok s.body ∧
      Field.optional ms "omit_body" none (Field.orNull Field.flag) = .ok s.omitBody ∧
      Field.optional ms "pagination" none (Field.orNull Field.text) = .ok s.pagination := by
  unfold Settings.build at h
  obtain ⟨_, pagination, upToOmit, paginationRead, rfl⟩ := Checked.seq_eq_ok.1 h
  obtain ⟨_, omitBody, upToBody, omitRead, rfl⟩ := Checked.seq_eq_ok.1 upToOmit
  obtain ⟨_, body, upToHeaders, bodyRead, rfl⟩ := Checked.seq_eq_ok.1 upToBody
  obtain ⟨_, headers, first, headersRead, rfl⟩ := Checked.seq_eq_ok.1 upToHeaders
  obtain ⟨queryArgs, queryRead, rfl⟩ := Checked.map_eq_ok.1 first
  exact ⟨queryRead, headersRead, bodyRead, omitRead, paginationRead⟩

theorem Settings.build_eq_ok {ms : Fields} {s : Settings} (h : Settings.build ms = .ok s) :
    s.queryArgs = objectUnder? ms "query_args" ∧ s.headers = objectUnder? ms "headers" ∧
      s.body = (Members.get? ms "body").getD .null ∧ s.omitBody = flagUnder? ms "omit_body" ∧
      Field.optional ms "pagination" none (Field.orNull Field.text) = .ok s.pagination := by
  obtain ⟨queryArgs, headers, body, omitBody, pagination⟩ := Settings.fields_of_build h
  exact ⟨Field.object_eq_ok queryArgs, Field.object_eq_ok headers, Field.any_eq_ok body,
    Field.flag_eq_ok omitBody, pagination⟩

theorem Target.build_eq_ok {ms : Fields} {target : Target} (h : Target.build ms = .ok target) :
    Settings.build ms = .ok target.toSettings ∧
      Field.required ms "path" Field.name = .ok target.path ∧
      Field.optional ms "method" .get Field.method = .ok target.method ∧
      Field.optional ms "client" none (Field.orNull Field.text) = .ok target.client := by
  unfold Target.build at h
  obtain ⟨_, client, upToMethod, clientRead, rfl⟩ := Checked.seq_eq_ok.1 h
  obtain ⟨_, method, upToPath, methodRead, rfl⟩ := Checked.seq_eq_ok.1 upToMethod
  obtain ⟨_, path, settings, pathRead, rfl⟩ := Checked.seq_eq_ok.1 upToPath
  obtain ⟨_, settingsRead, rfl⟩ := Checked.map_eq_ok.1 settings
  exact ⟨settingsRead, pathRead, methodRead, clientRead⟩

theorem Resolved.build_eq_ok {ms : Fields} {r : Resolved} (h : Resolved.build ms = .ok r) :
    Target.build ms = .ok r.toTarget ∧
      Field.optional ms "readonly" false Field.flag = .ok r.readonly := by
  unfold Resolved.build at h
  obtain ⟨_, readonly, target, readonlyRead, rfl⟩ := Checked.seq_eq_ok.1 h
  obtain ⟨_, targetRead, rfl⟩ := Checked.map_eq_ok.1 target
  exact ⟨targetRead, readonlyRead⟩

end Endpoint

namespace Plan

variable {definitions : Registry.Definitions} {request : Request} {p : Plan}

section Ranks

variable (request : Request) (client : String) (target : Given Endpoint.Target)
  (entry : Given Endpoint.Entry) (pagination : Pagination.Definition)

def ranks : Fields :=
  flatten [pagination.clientArgs,
    (entry.given Endpoint.Entry.members).filter (·.1 != "readonly"),
    target.given Endpoint.Target.members]

def fixed : Fields :=
  [("path", .str target.value.path), ("method", .ofMethod target.value.method),
   ("client", .str client), ("pagination", .str pagination.id),
   ("readonly", .bool entry.value.readonly)]

theorem get?_merged (name : String) : Members.get? (merged client target entry pagination) name =
    (Members.get? (fixed client target entry pagination) name).or
      (Members.get? (ranks target entry pagination) name) := by
  have distinct : (Members.keys (fixed client target entry pagination)).Nodup := by
    change ["path", "method", "client", "pagination", "readonly"].Nodup
    decide
  exact Members.get?_putAll distinct name

def resolved : Endpoint.Resolved where
  queryArgs := objectUnder? (ranks target entry pagination) "query_args"
  headers := objectUnder? (ranks target entry pagination) "headers"
  body := (Members.get? (ranks target entry pagination) "body").getD .null
  omitBody := flagUnder? (ranks target entry pagination) "omit_body"
  pagination := some pagination.id
  path := target.value.path
  method := target.value.method
  client := some client
  readonly := entry.value.readonly

def templated : Call where
  path := target.value.path
  method := target.value.method
  queryArgs := membersUnder (ranks target entry pagination) "query_args"
  headers := membersUnder (ranks target entry pagination) "headers"
  body := if flagUnder? (ranks target entry pagination) "omit_body" = some true then .null
    else (Members.get? (ranks target entry pagination) "body").getD .null

theorem call_resolved :
    (resolved client target entry pagination).call = templated target entry pagination := by
  simp only [templated, ← objectUnder?_getD]
  rfl

/-- The plan that a request comes to. -/
def ofRanks : Plan where
  request := request
  endpoint := resolved client request.target entry pagination
  clientName := client
  pagination := pagination
  call := templated request.target entry pagination

variable {client target entry pagination}

theorem get?_merged_of_fixed {name : String} {v : Value}
    (written : Members.get? (fixed client target entry pagination) name = some v) :
    Members.get? (merged client target entry pagination) name = some v := by
  rw [get?_merged, written, Option.some_or]

theorem get?_merged_of_open {name : String}
    (unwritten : Members.get? (fixed client target entry pagination) name = none) :
    Members.get? (merged client target entry pagination) name =
      Members.get? (ranks target entry pagination) name := by
  rw [get?_merged, unwritten, Option.none_or]

/-- The identity of an endpoint outlasts the ranks that are laid over each other. -/
theorem read_merged {g : Given Endpoint.Resolved}
    (h : Endpoint.Resolved.read (.obj (merged client target entry pagination)) = .ok g) :
    g.value = resolved client target entry pagination := by
  obtain ⟨targetRead, readonly⟩ := Endpoint.Resolved.build_eq_ok (Given.readClosed_eq_ok h)
  obtain ⟨settings, path, method, client⟩ := Endpoint.Target.build_eq_ok targetRead
  obtain ⟨queryArgs, headers, body, omitBody, pagination⟩ :=
    Endpoint.Settings.build_eq_ok settings
  rw [objectUnder?, get?_merged_of_open rfl] at queryArgs headers
  rw [get?_merged_of_open rfl] at body
  rw [flagUnder?, get?_merged_of_open rfl] at omitBody
  rw [Field.required_eq_ok (get?_merged_of_fixed rfl)] at path
  rw [Field.optional_eq_ok (get?_merged_of_fixed rfl)] at method client pagination readonly
  generalize g.value = r at *
  obtain ⟨⟨⟨_, _, _, _, _⟩, _, _, _⟩, _⟩ := r
  simp only [resolved, Endpoint.Resolved.mk.injEq, Endpoint.Target.mk.injEq,
    Endpoint.Settings.mk.injEq]
  exact ⟨⟨⟨queryArgs, headers, body, omitBody, Field.text_eq_ok pagination⟩,
    Field.name_eq_ok path, Field.method_eq_ok method, Field.text_eq_ok client⟩,
    (Checked.ok.inj readonly).symm⟩

end Ranks

theorem entryFor_eq_ok {client : String} {target : Endpoint.Target} {entry : Given Endpoint.Entry}
    (h : (entryFor definitions client target).result = .ok entry) :
    definitions.queryEndpoint client target.path target.method = some entry ∧
      entry.value.readonly = true := by
  unfold entryFor at h
  split at h
  next =>
    obtain ⟨_, -, failed⟩ := Noted.bind_eq_ok.1 h
    cases failed
  next found registered =>
    split at h
    next readonly =>
      cases h
      exact ⟨registered, readonly⟩
    next =>
      obtain ⟨_, -, failed⟩ := Noted.bind_eq_ok.1 h
      cases failed

/-- The client that a target asks for: the one that it names, or the default one where it names none
or says the empty text. -/
def clientAsked (definitions : Registry.Definitions) (target : Endpoint.Target) : String :=
  match target.client with
  | none | some "" => definitions.defaultClient
  | some name => name

/-- The pagination id that a target asks for, or that of its entry where it says none or the empty
text. -/
def paginationAsked? (target : Endpoint.Target) (entry : Endpoint.Entry) : Option String :=
  match target.pagination with
  | none | some "" => entry.pagination
  | some id => some id

theorem filledIn?_of_ne {s : String} (nonempty : s ≠ "") : filledIn? (some s) = some s := by
  simp [filledIn?, nonempty]

theorem clientOf_eq_clientAsked (definitions : Registry.Definitions) (target : Endpoint.Target) :
    clientOf definitions target = clientAsked definitions target := by
  unfold clientOf clientAsked
  split
  next absent => rw [absent]; rfl
  next empty => rw [empty]; rfl
  next name nonempty given => rw [given, filledIn?_of_ne nonempty]; rfl

theorem paginationId_eq (target : Endpoint.Target) (entry : Endpoint.Entry) :
    paginationId target entry = .ofOption .str (paginationAsked? target entry) := by
  unfold paginationId paginationAsked?
  split
  next absent => rw [absent]; rfl
  next empty => rw [empty]; rfl
  next id nonempty given => rw [given, filledIn?_of_ne nonempty]; rfl

/-- A plan of a request: its endpoint is registered for the client of the target and readonly, and
the templated call goes there. -/
structure Bound (definitions : Registry.Definitions) (request : Request) (p : Plan) : Prop where
  asked : p.request = request
  client : p.clientName = clientAsked definitions request.target.value
  registered : ∃ entry, definitions.queryEndpoint p.clientName request.target.value.path
    request.target.value.method = some entry ∧ entry.value.readonly = true
  path : p.call.path = request.target.value.path
  method : p.call.method = request.target.value.method

theorem bound_of_make (h : (make definitions request).result = .ok p) :
    Bound definitions request p := by
  unfold make at h
  obtain ⟨entry, checked, h⟩ := Noted.bind_eq_ok.1 h
  obtain ⟨pagination, -, h⟩ := Noted.bind_eq_ok.1 h
  obtain ⟨registered, readonly⟩ := entryFor_eq_ok checked
  dsimp only at h
  split at h
  next endpoint read =>
    cases h
    rw [read_merged read]
    exact ⟨rfl, clientOf_eq_clientAsked _ _, ⟨entry, registered, readonly⟩, rfl, rfl⟩
  next => cases h

end Plan

end Harvest
