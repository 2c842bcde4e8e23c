import Harvest.Proofs.Outcomes
import Harvest.Registry.Definitions

namespace Harvest

section Guarded

variable {α β ε : Type} {p : Prop} {a : α} {r : Except ε α}

theorem not_of_guarded (guarded : ∀ v, r = .ok v ↔ p ∧ v = a) {e : ε} (failed : r = .error e) :
    ¬ p := by
  intro holds
  rw [(guarded a).2 ⟨holds, rfl⟩] at failed
  cases failed

theorem bind_guarded (guarded : ∀ v, r = .ok v ↔ p ∧ v = a) {next : α → Except ε β} {b : β} :
    (r >>= next) = .ok b ↔ p ∧ next a = .ok b := by
  rw [bind_eq_ok]
  constructor
  · rintro ⟨v, read, rest⟩
    obtain ⟨holds, rfl⟩ := (guarded v).1 read
    exact ⟨holds, rest⟩
  · rintro ⟨holds, rest⟩
    exact ⟨a, (guarded a).2 ⟨holds, rfl⟩, rest⟩

theorem map_guarded (guarded : ∀ v, r = .ok v ↔ p ∧ v = a) (f : α → β) {b : β} :
    r.map f = .ok b ↔ p ∧ b = f a := by
  rw [map_eq_ok]
  constructor
  · rintro ⟨v, read, rfl⟩
    obtain ⟨holds, rfl⟩ := (guarded v).1 read
    exact ⟨holds, rfl⟩
  · rintro ⟨holds, rfl⟩
    exact ⟨a, (guarded a).2 ⟨holds, rfl⟩, rfl⟩

theorem mapError_guarded {δ : Type} (guarded : ∀ v, r = .ok v ↔ p ∧ v = a) (g : ε → δ) {v : α} :
    r.mapError g = .ok v ↔ p ∧ v = a := by
  rw [← guarded v]
  cases r <;> simp [Except.mapError]

theorem mapM_guarded {f : α → Except ε β} {p : α → Prop} {g : α → β}
    (guarded : ∀ a b, f a = .ok b ↔ p a ∧ b = g a) {items : List α} {results : List β} :
    items.mapM f = .ok results ↔ (∀ a ∈ items, p a) ∧ results = items.map g := by
  rw [mapM_eq_ok]
  induction items generalizing results with
  | nil => simp
  | cons a rest ih =>
    cases results with
    | nil => simp
    | cons b others =>
      rw [List.forall₂_cons, ih, guarded, List.forall_mem_cons, List.map_cons, List.cons.injEq]
      tauto

end Guarded

namespace Value

def fields : Value → Fields
  | obj members => members
  | _ => []

def under (v : Value) (name : String) : Value :=
  (Members.get? v.fields name).getD .null

def along (v : Value) (names : List String) : Value :=
  names.foldl under v

def isObject : Value → Bool
  | obj _ => true
  | _ => false

def isLayer (v : Value) : Bool :=
  v.isBlank || v.isObject

def parts : Value → List Value
  | arr items => items
  | v => [v]

variable {v : Value} {members : Fields}

theorem fields_of_isBlank (blank : v.isBlank = true) : v.fields = [] := by
  cases v with
  | obj members => simpa [isBlank, fields] using blank
  | _ => rfl

theorem objectMembers_eq_ok :
    v.objectMembers = .ok members ↔ v.isObject = true ∧ members = v.fields := by
  cases v <;> simp [objectMembers, isObject, fields, eq_comm]

theorem overlayMembers_eq_ok :
    v.overlayMembers = .ok members ↔ v.isLayer = true ∧ members = v.fields := by
  by_cases blank : v.isBlank = true
  · simp [overlayMembers, isLayer, blank, fields_of_isBlank, eq_comm]
  · simp [overlayMembers, isLayer, blank, objectMembers_eq_ok]

end Value

namespace Config

variable {layers : List Value} {members : Fields}

theorem flattenLayers_eq_ok : flattenLayers layers = .ok members ↔
    (∀ v ∈ layers, v.isLayer = true) ∧ members = flatten (layers.map Value.fields) :=
  map_guarded (fun _ => mapM_guarded fun _ _ => Value.overlayMembers_eq_ok) flatten

def atop (default v : Value) : Fields :=
  flatten [default.fields, v.fields]

theorem atop_eq_ok {default v : Value} : flattenLayers [default, v] = .ok members ↔
    (default.isLayer = true ∧ v.isLayer = true) ∧ members = atop default v := by
  simp [flattenLayers_eq_ok, atop]

namespace Defaults

variable {d : Defaults} {v w : Value}

def atop (d : Defaults) : Value → Value
  | .arr items => .arr (items.map fun item => .obj (Config.atop d.default item))
  | v => .obj (Config.atop d.default v)

theorem atop_eq_arr {items : List Value} : d.atop v = .arr items ↔
    ∃ entries, v = .arr entries ∧
      items = entries.map fun entry => .obj (Config.atop d.default entry) := by
  cases v <;> simp [atop, eq_comm]

theorem laid_eq_ok : d.laid v = .ok w ↔
    (∀ item ∈ v.parts, d.default.isLayer = true ∧ item.isLayer = true) ∧ w = d.atop v := by
  cases v with
  | arr items => exact map_guarded (fun _ => mapM_guarded fun _ _ =>
      map_guarded (fun _ => atop_eq_ok) Value.obj) Value.arr
  | _ =>
    simp only [Value.parts, List.forall_mem_singleton]
    exact map_guarded (fun _ => atop_eq_ok) Value.obj

end Defaults

end Config

namespace Registry

namespace Endpoints

variable {default : Value} {path : String}

theorem addMethods_cons (r : Endpoints) (name : String) (v : Value) (rest : Fields) :
    addMethods default path r ((name, v) :: rest) =
      match Method.ofName? name with
      | none => .error (.definition (.unknownMethod name path))
      | some method => readEntry default path method v >>= fun entry =>
        addMethods default path ⟨putEntry r.entries (path, method) entry⟩ rest := by
  rw [addMethods]
  cases Method.ofName? name with
  | none => rfl
  | some method =>
    dsimp only
    cases readEntry default path method v <;> rfl

theorem addPaths_cons {byMethod : Value} {methods : Fields}
    (listed : byMethod.objectMembers = .ok methods) (r : Endpoints) (rest : Fields) :
    addPaths default r ((path, byMethod) :: rest) =
      addMethods default path r methods >>= fun added => addPaths default added rest := by
  rw [addPaths, listed]
  dsimp only
  cases addMethods default path r methods <;> rfl

end Endpoints

namespace Definitions

variable {available : List String} {config v w : Value} {d : Definitions} {name : String}

theorem member_eq_ok : member v name = .ok w ↔ v.isObject = true ∧ w = v.under name := by
  cases v <;> simp [member, Value.objectMembers, Value.isObject, Value.under, Value.fields, eq_comm]

theorem memberOrNull_eq_ok : memberOrNull v name = .ok w ↔ v.isLayer = true ∧ w = v.under name := by
  unfold memberOrNull
  split
  next failed =>
    have other := not_of_guarded (fun _ => Value.overlayMembers_eq_ok) failed
    simp [other]
  next members read =>
    obtain ⟨layer, rfl⟩ := Value.overlayMembers_eq_ok.1 read
    simp [layer, Value.under, eq_comm]

section

variable {β : Type} {next : Value → Except Failure β} {b : β}

theorem bind_member : (member v name >>= next) = .ok b ↔
    v.isObject = true ∧ next (v.under name) = .ok b :=
  bind_guarded fun _ => member_eq_ok

theorem bind_memberOrNull : (memberOrNull v name >>= next) = .ok b ↔
    v.isLayer = true ∧ next (v.under name) = .ok b :=
  bind_guarded fun _ => memberOrNull_eq_ok

end

theorem readClient_eq_ok {m : String × Value} {client : String × Endpoints}
    (h : readClient available m = .ok client) : m.1 ∈ available ∧ client.1 = m.1 ∧
      Endpoints.read (m.2.along ["endpoints", "default"])
        (m.2.along ["endpoints", "customizations"]) = .ok client.2 := by
  unfold readClient at h
  extract_lets rest at h
  split at h
  · obtain ⟨_, thrown, -⟩ := bind_eq_ok.1 h
    cases thrown
  next present =>
    obtain ⟨-, h⟩ := bind_memberOrNull.1 h
    obtain ⟨-, h⟩ := bind_memberOrNull.1 h
    obtain ⟨-, h⟩ := bind_memberOrNull.1 h
    obtain ⟨registry, registryRead, h⟩ := bind_eq_ok.1 h
    cases h
    exact ⟨by simpa using present, rfl, registryRead⟩

structure Sections (available : List String) (config : Value) (d : Definitions) : Prop where
  clients : List.Forall₂ (fun m client => readClient available m = .ok client)
    (config.along ["clients", "options"]).fields d.clients
  default : ∃ named, readDefault d.clients (config.along ["clients", "default"]) = .ok named ∧
    checkDefault d.clients named = .ok d.defaultClient
  requests : Requests.read (config.along ["requests", "default"])
    (config.along ["requests", "customizations"]) = .ok d.requests
  paginations : Pagination.Table.read (config.under "pagination") = .ok d.paginations

theorem sections_of_read (h : read available config = .ok d) : Sections available config d := by
  unfold read at h
  obtain ⟨-, h⟩ := bind_member.1 h
  obtain ⟨-, h⟩ := bind_memberOrNull.1 h
  obtain ⟨-, h⟩ :=
    (bind_guarded fun _ => mapError_guarded (fun _ => Value.overlayMembers_eq_ok) _).1 h
  obtain ⟨clients, clientsRead, h⟩ := bind_eq_ok.1 h
  obtain ⟨-, h⟩ := bind_memberOrNull.1 h
  obtain ⟨named, defaultRead, h⟩ := bind_eq_ok.1 h
  obtain ⟨-, h⟩ := bind_member.1 h
  obtain ⟨members, -, h⟩ := bind_eq_ok.1 h
  obtain ⟨-, h⟩ := bind_memberOrNull.1 h
  obtain ⟨-, h⟩ := bind_memberOrNull.1 h
  obtain ⟨requests, requestsRead, h⟩ := bind_eq_ok.1 h
  obtain ⟨-, h⟩ := bind_member.1 h
  obtain ⟨paginations, paginationsRead, h⟩ := bind_eq_ok.1 h
  obtain ⟨defaultClient, checked, h⟩ := bind_eq_ok.1 h
  cases h
  exact ⟨mapM_eq_ok.1 clientsRead, ⟨named, defaultRead, checked⟩, requestsRead, paginationsRead⟩

end Definitions

end Registry

end Harvest
