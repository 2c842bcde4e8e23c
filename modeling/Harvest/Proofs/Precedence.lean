import Harvest.Proofs.Declared
import Harvest.Proofs.Merging
import Harvest.Proofs.Staging
import Harvest.Proofs.WriteBack

namespace Harvest

open Config

namespace Value

variable {ms : Fields} {name : String} {v : Value}

theorem isPlain_put (plain : (obj ms).isPlain = true) (given : v.isPlain = true) :
    (obj (Members.put ms name v)).isPlain = true := by
  obtain ⟨distinct, each⟩ := isPlain_obj_iff.1 plain
  refine isPlain_obj_iff.2 ⟨Members.nodup_keys_put distinct name v, fun m member => ?_⟩
  rcases Members.mem_put member with rfl | before
  · exact given
  · exact each m before

end Value

namespace Config

variable {lower : Fields} {layers : List Fields} {name : String}

theorem isPlain_membersUnder (plain : (Value.obj lower).isPlain = true) (name : String) :
    (Value.obj (membersUnder lower name)).isPlain = true := by
  rcases membersUnder_cases lower name with found | none
  · exact Value.isPlain_of_get? plain found
  · rw [none]
    rfl

theorem isPlain_overlay {upper : Fields} (below : (Value.obj lower).isPlain = true)
    (above : (Value.obj upper).isPlain = true) : (Value.obj (overlay lower upper)).isPlain = true := by
  suffices all : ∀ v : Value, v.isPlain = true → ∀ lower, (Value.obj lower).isPlain = true →
      (Value.obj (overlay lower v.fields)).isPlain = true from
    all (.obj upper) above lower below
  intro v
  induction v using Value.parts_induction with
  | obj members ih =>
    intro plain
    change ∀ lower, _ → (Value.obj (overlay lower members)).isPlain = true
    have each := (Value.isPlain_obj_iff.1 plain).2
    clear plain
    induction members with
    | nil => exact fun _ below => below
    | cons m rest others =>
      obtain ⟨name, w⟩ := m
      obtain ⟨here, later⟩ := List.forall_mem_cons.1 ih
      obtain ⟨own, each⟩ := List.forall_mem_cons.1 each
      refine fun lower below => others later each _ ?_
      cases w with
      | null => exact below
      | obj inner => exact Value.isPlain_put below (here own _ (isPlain_membersUnder below name))
      | _ => exact Value.isPlain_put below own
  | _ => exact fun _ _ below => below

theorem isPlain_flatten (plain : ∀ layer ∈ layers, (Value.obj layer).isPlain = true) :
    (Value.obj (flatten layers)).isPlain = true := by
  induction layers using List.reverseRecOn with
  | nil => rfl
  | append_singleton layers upper ih =>
    obtain ⟨below, here⟩ := List.forall_mem_append.1 plain
    rw [flatten_concat]
    exact isPlain_overlay (ih below) (here _ (List.mem_singleton_self _))

theorem rel_overlay {S : Value → Value → Prop} {upper : Fields}
    (each : ∀ m ∈ upper, m.1 = name → ∀ a b,
      Option.Rel S (Members.get? a name) (Members.get? b name) →
      Option.Rel S (Members.get? (overlayMember a name m.2) name)
        (Members.get? (overlayMember b name m.2) name)) (a b : Fields)
    (below : Option.Rel S (Members.get? a name) (Members.get? b name)) :
    Option.Rel S (Members.get? (overlay a upper) name) (Members.get? (overlay b upper) name) := by
  induction upper generalizing a b with
  | nil => exact below
  | cons m rest ih =>
    obtain ⟨key, v⟩ := m
    obtain ⟨here, later⟩ := List.forall_mem_cons.1 each
    refine ih later _ _ ?_
    by_cases same : key = name
    · subst same
      exact here rfl a b below
    · rw [get?_overlayMember_of_ne v (Ne.symm same), get?_overlayMember_of_ne v (Ne.symm same)]
      exact below

end Config

namespace Endpoint

theorem Respelled.eq {name : String} {v w : Value} (flag : name ≠ "omit_body")
    (readonly : name ≠ "readonly") (method : name ≠ "method") (same : Respelled name v w) :
    v = w := by
  unfold Respelled at same
  split at same
  · exact absurd rfl flag
  · exact absurd rfl readonly
  · exact absurd rfl method
  · exact same

theorem Resolved.agree_read {a b : Fields} (alike : Alike Respelled a b) :
    (Resolved.read (.obj a)).Agree (Resolved.read (.obj b)) := by
  refine Given.agree_readClosed ?_ alike
  exact .seq (.map _ (Target.agree_build alike))
    (Field.agree_optional (fun _ _ same => same) (alike "readonly"))

end Endpoint

namespace Plan

variable {definitions : Registry.Definitions} {request : Request} {client : String}
  {target : Given Endpoint.Target} {entry : Given Endpoint.Entry}
  {pagination : Pagination.Definition} {default own : Fields}

/-- All layers of an endpoint laid over each other in one pass, from the lowest to the highest. -/
def mergedAtOnce (client : String) (target : Given Endpoint.Target) (entry : Given Endpoint.Entry)
    (pagination : Pagination.Definition) (default own : Fields) : Fields :=
  Members.putAll (flatten [pagination.clientArgs, default, own,
    target.given Endpoint.Target.members]) (fixed client target entry pagination)

theorem rel_target (sound : target.Sound .endpointTarget) {name : String}
    (unfixed : name ∉ fixedNames) {a b : Fields}
    (below : Option.Rel (Endpoint.Respelled name) (Members.get? a name) (Members.get? b name)) :
    Option.Rel (Endpoint.Respelled name)
      (Members.get? (overlay a (target.given Endpoint.Target.members)) name)
      (Members.get? (overlay b (target.given Endpoint.Target.members)) name) := by
  refine rel_overlay (fun m member same a b below => ?_) a b below
  have fits := (harmless_of_target sound m member).resolve_left (same ▸ unfixed)
  by_cases flag : name = "omit_body"
  · rw [same, flag] at fits
    rcases fits with null | ⟨_, accepted⟩
    · rw [null]
      exact below
    · rw [get?_overlayMember_leaf (Field.isLeaf_of_flag accepted),
        get?_overlayMember_leaf (Field.isLeaf_of_flag accepted)]
      exact .some (Endpoint.Respelled.refl name m.2)
  · simp only [fixedNames, List.mem_cons, List.not_mem_nil, or_false, not_or] at unfixed
    obtain ⟨-, method, -, -, readonly⟩ := unfixed
    have equal : Members.get? a name = Members.get? b name := by
      generalize Members.get? a name = v at below ⊢
      generalize Members.get? b name = w at below ⊢
      cases below with
      | none => rfl
      | some same => rw [same.eq flag readonly method]
    rw [get?_overlayMember_congr equal]
    exact rel_refl (Endpoint.Respelled.refl name) _

theorem get?_filter_of_ne {ms : Fields} {name other : String} (apart : name ≠ other) :
    Members.get? (ms.filter (·.1 != other)) name = Members.get? ms name := by
  induction ms with
  | nil => rfl
  | cons m rest ih =>
    obtain ⟨key, v⟩ := m
    by_cases dropped : key = other
    · simp [dropped, Members.get?, ih, Ne.symm apart]
    · simp [dropped, Members.get?, ih]

theorem alike_merged (lower : (Value.obj default).isPlain = true)
    (upper : (Value.obj own).isPlain = true)
    (settings : (Value.obj pagination.clientArgs).isPlain = true)
    (entered : Endpoint.Entry.read (.obj (flatten [default, own])) = .ok entry)
    (sound : target.Sound .endpointTarget) (free : ¬ Clashes pagination.clientArgs default own) :
    Alike Endpoint.Respelled (mergedAtOnce client target entry pagination default own)
      (merged client target entry pagination) := by
  intro name
  have distinct : (Members.keys (fixed client target entry pagination)).Nodup := by
    change fixedNames.Nodup
    decide
  rw [mergedAtOnce, Members.get?_putAll distinct, get?_merged]
  cases written : Members.get? (fixed client target entry pagination) name with
  | some v => exact .some (Endpoint.Respelled.refl name v)
  | none =>
    have unfixed : name ∉ fixedNames := Members.get?_eq_none_iff.1 written
    rw [← flatten_upper settings lower upper free]
    refine rel_target sound unfixed ?_
    have laid : (Value.obj (flatten [default, own])).isPlain = true :=
      isPlain_flatten (by simp [lower, upper])
    have once := Endpoint.Entry.writes.nodup_given entered
    have apart : name ≠ "readonly" := fun same => unfixed (by simp [same, fixedNames])
    have filtered : (Members.keys
        ((entry.given Endpoint.Entry.members).filter (·.1 != "readonly"))).Nodup :=
      once.sublist (List.filter_sublist.map _)
    refine rel_overlay_of_atop Endpoint.Respelled.refl (Value.nodup_of_isPlain laid) filtered ?_ _
    rw [get?_filter_of_ne apart]
    exact Endpoint.Entry.writes.alike_given laid entered name

/-- A request that may be bound, where the entry of its endpoint comes of a default and of a layer
of its own. -/
structure Layered (definitions : Registry.Definitions) (request : Request) (default own : Value)
    (entry : Given Endpoint.Entry) (pagination : Pagination.Definition) : Prop where
  found : entryOf? definitions request = some entry
  entered : Registry.Endpoints.readEntry default request.target.value.path
    request.target.value.method own = .ok entry
  readonly : entry.value.readonly = true
  paginated : pagination? definitions request entry = some pagination
  sound : request.target.Sound .endpointTarget

theorem call_iff_atOnce {default own : Value}
    (layered : Layered definitions request default own entry pagination)
    (settings : (Value.obj pagination.clientArgs).isPlain = true)
    (lower : default.opened.isPlain = true) (upper : own.opened.isPlain = true)
    (free : ¬ Clashes pagination.clientArgs default.opened.fields own.opened.fields) (call : Call) :
    (∃ p, (make definitions request).result = .ok p ∧ p.call = call) ↔
      ∃ g, Endpoint.Resolved.read (.obj (mergedAtOnce (clientAsked definitions request.target.value)
          request.target entry pagination default.opened.fields own.opened.fields)) = .ok g ∧
        g.value.call = call := by
  have entered := Registry.Endpoints.fits_of_readEntry layered.entered
  have alike : Alike Endpoint.Respelled
      (mergedAtOnce (clientAsked definitions request.target.value) request.target entry pagination
        default.opened.fields own.opened.fields)
      (merged (clientAsked definitions request.target.value) request.target entry pagination) :=
    alike_merged (isPlain_fields lower) (isPlain_fields upper) settings entered layered.sound free
  have agree := Endpoint.Resolved.agree_read alike
  constructor
  · rintro ⟨p, made, rfl⟩
    cases read : Endpoint.Resolved.read (.obj (merged
        (clientAsked definitions request.target.value) request.target entry pagination)) with
    | ok g =>
      rw [make_of_accepted layered.found layered.readonly layered.paginated read] at made
      obtain rfl := Except.ok.inj made
      refine ⟨g, (agree g).2 read, ?_⟩
      rw [read_merged read, call_resolved]
      rfl
    | rejected issues =>
      rw [make_of_rejected layered.found layered.readonly layered.paginated read] at made
      cases made
  · rintro ⟨g, read, rfl⟩
    have staged := (agree g).1 read
    refine ⟨_, make_of_accepted layered.found layered.readonly layered.paginated staged, ?_⟩
    rw [read_merged staged, call_resolved]
    rfl

/-- Layers may be laid over each other in stages: the lower two first, or the upper two first if the
layers are not at odds. So the call of a request is the same whether its registry lays the default
below the entry beforehand or all layers are laid over each other in one pass. -/
theorem staged_merging (a b c : Value)
    (layers : ∀ layer ∈ [a, b, c], layer.isLayer = true ∧ layer.isPlain = true) :
    (∃ merged, flattenLayers [a, b, c] = .ok merged ∧
      (∃ lower, flattenLayers [a, b] = .ok lower ∧ flattenLayers [.obj lower, c] = .ok merged) ∧
      (¬ Clashes a.fields b.fields c.fields → ∃ upper, flattenLayers [b, c] = .ok upper ∧
        flattenLayers [a, .obj upper] = .ok merged)) ∧
    ∀ definitions request default own entry pagination,
      Layered definitions request default own entry pagination →
      (Value.obj pagination.clientArgs).isPlain = true → default.opened.isPlain = true →
      own.opened.isPlain = true →
      ¬ Clashes pagination.clientArgs default.opened.fields own.opened.fields →
      ∀ call, (∃ p, (make definitions request).result = .ok p ∧ p.call = call) ↔
        ∃ g, Endpoint.Resolved.read (.obj (mergedAtOnce (clientAsked definitions request.target.value)
            request.target entry pagination default.opened.fields own.opened.fields)) = .ok g ∧
          g.value.call = call := by
  refine ⟨?_, fun _ _ _ _ _ _ layered settings lower upper free call =>
    call_iff_atOnce layered settings lower upper free call⟩
  obtain ⟨⟨layerA, plainA⟩, layers⟩ := List.forall_mem_cons.1 layers
  obtain ⟨⟨layerB, plainB⟩, layers⟩ := List.forall_mem_cons.1 layers
  obtain ⟨layerC, plainC⟩ := List.forall_mem_singleton.1 layers
  have plainA := isPlain_fields plainA
  have plainB := isPlain_fields plainB
  have plainC := isPlain_fields plainC
  have object (ms : Fields) : (Value.obj ms).isLayer = true := Bool.or_true _
  have lower : ∀ layer ∈ [a.fields, b.fields], (Value.obj layer).isPlain = true := by
    simp [plainA, plainB]
  refine ⟨flatten [a.fields, b.fields, c.fields], flattenLayers_eq_ok.2 ⟨?_, rfl⟩,
    ⟨_, flattenLayers_eq_ok.2 ⟨?_, rfl⟩, flattenLayers_eq_ok.2 ⟨?_, ?_⟩⟩,
    fun free => ⟨_, flattenLayers_eq_ok.2 ⟨?_, rfl⟩, flattenLayers_eq_ok.2 ⟨?_, ?_⟩⟩⟩
  · simp [layerA, layerB, layerC]
  · simp [layerA, layerB]
  · simp [object, layerC]
  · exact (flatten_lower [c.fields] lower).symm
  · simp [layerB, layerC]
  · simp [object, layerA]
  · exact (flatten_upper plainA plainB plainC free).symm

def layeredDefault : Value :=
  .obj [("readonly", .bool true), ("omit_body", .bool false),
    ("query_args", .obj [("limit", .int 10)])]

def layeredOwn : Value :=
  .obj [("pagination", .str "none"), ("body", .str "all"),
    ("query_args", .obj [("limit", .int 20), ("q", .null)])]

theorem layered_in_stages :
    (∀ layer ∈ [.obj layeredPagination.clientArgs, layeredDefault, layeredOwn],
      layer.isLayer = true ∧ layer.isPlain = true) ∧
    ¬ Clashes layeredPagination.clientArgs layeredDefault.fields layeredOwn.fields ∧
    Layered layeredDefinitions layeredRequest layeredDefault layeredOwn layeredEntry
      layeredPagination ∧
    (∃ upper, flattenLayers [layeredDefault, layeredOwn] = .ok upper ∧
      flattenLayers [.obj layeredPagination.clientArgs, .obj upper] =
        flattenLayers [.obj layeredPagination.clientArgs, layeredDefault, layeredOwn]) ∧
    ∃ p, (make layeredDefinitions layeredRequest).result = .ok p ∧
      p.call = ⟨"/a", .get, [("limit", .int 20), ("q", .int 1), ("x", .int 2)], [], .str "all"⟩ := by
  have plain : ∀ layer ∈ [.obj layeredPagination.clientArgs, layeredDefault, layeredOwn],
      layer.isLayer = true ∧ layer.isPlain = true := by decide
  have free : ¬ Clashes layeredPagination.clientArgs layeredDefault.fields layeredOwn.fields := by
    intro clashes
    obtain ⟨name, x, w, z, below, between, -, -, deeper⟩ := clashes_iff.1 clashes
    have object := Members.mem_of_get? below
    simp only [layeredPagination, List.mem_cons, Prod.mk.injEq, reduceCtorEq, and_false,
      List.not_mem_nil, or_false, Value.obj.injEq] at object
    obtain ⟨rfl, rfl⟩ := object
    cases between
    obtain ⟨_, _, _, _, inner, -⟩ := clashes_iff.1 (deeper rfl)
    simpa using Members.mem_of_get? inner
  have asked : Endpoint.Target.read layeredTarget = .ok layeredRequest.target := by cbv
  have layered : Layered layeredDefinitions layeredRequest layeredDefault layeredOwn layeredEntry
      layeredPagination :=
    ⟨by cbv, by cbv, rfl, by cbv, (Endpoint.Target.sound_of_read (by rintro _ _ _ ⟨⟩) asked).1⟩
  obtain ⟨⟨merged, whole, -, stages⟩, calls⟩ :=
    staged_merging (.obj layeredPagination.clientArgs) layeredDefault layeredOwn plain
  obtain ⟨upper, first, second⟩ := stages free
  refine ⟨plain, free, layered, ⟨upper, first, second.trans whole.symm⟩, ?_⟩
  exact (calls _ _ _ _ _ _ layered (by decide) (by decide) (by decide) free _).2
    ⟨⟨⟨⟨⟨some [("limit", .int 20), ("q", .int 1), ("x", .int 2)], none, .str "all", some false,
      some "pages"⟩, "/a", .get, some "side"⟩, true⟩, .resolvedEndpoint, [],
      ["query_args", "body", "omit_body", "pagination", "path", "method", "client", "readonly"]⟩,
      by cbv, by cbv⟩

end Plan

end Harvest
