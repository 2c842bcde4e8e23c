import Mathlib
import Harvest.Proofs.Parts
import Harvest.Proofs.Wording

namespace Harvest.Registry

/-- What becomes of reading data that have to be layered, in which there may be a flaw of another
kind. -/
inductive Asks {α : Type} (layered : Prop) (flaw : Option Failure) : Except Failure α → Prop
  | read (a : α) (fits : layered) (sound : flaw = none) : Asks layered flaw (.ok a)
  | faulty (fault : DefinitionFault) : Asks layered flaw (.error (.definition fault))
  | shapeless (unfit : ¬ layered) : Asks layered flaw (.error .shapeless)
  | flawed {f : Failure} (fits : layered) (found : flaw = some f) : Asks layered flaw (.error f)

namespace Asks

variable {α β : Type} {layered shape : Prop} {flaw : Option Failure} {r : Except Failure α}

theorem congr (same : shape ↔ layered) (asks : Asks shape flaw r) : Asks layered flaw r :=
  propext same ▸ asks

theorem ok (a : α) : Asks True none (.ok a : Except Failure α) :=
  .read a trivial rfl

theorem bind {next : α → Except Failure β} (first : Asks shape none r) (needed : layered → shape)
    (later : ∀ a, r = .ok a → shape → Asks layered flaw (next a)) :
    Asks layered flaw (r >>= next) := by
  cases first with
  | read a fits => exact later a rfl fits
  | faulty fault => exact .faulty fault
  | shapeless unfit => exact .shapeless fun layered => unfit (needed layered)
  | flawed _ found => cases found

theorem bind_guarded {a : α} {next : α → Except Failure β} (first : Asks shape none r)
    (guarded : ∀ v, r = .ok v ↔ shape ∧ v = a) (needed : layered → shape)
    (later : shape → Asks layered flaw (next a)) : Asks layered flaw (r >>= next) := by
  refine first.bind needed fun v read fits => ?_
  obtain ⟨-, rfl⟩ := (guarded v).1 read
  exact later fits

theorem map {f : α → β} (asks : Asks layered flaw r) : Asks layered flaw (r.map f) := by
  cases asks with
  | read a fits sound => exact .read (f a) fits sound
  | faulty fault => exact .faulty fault
  | shapeless unfit => exact .shapeless unfit
  | flawed fits found => exact .flawed fits found

theorem mapM {f : α → Except Failure β} {shaped : α → Prop} {items : List α}
    (each : ∀ a ∈ items, Asks (shaped a) none (f a)) :
    Asks (∀ a ∈ items, shaped a) none (items.mapM f) := by
  induction items with
  | nil => exact (ok []).congr (by simp)
  | cons a rest ih =>
    obtain ⟨first, others⟩ := List.forall_mem_cons.1 each
    rw [List.mapM_cons]
    refine first.bind (fun all => all a List.mem_cons_self) fun b _ here => ?_
    refine (ih others).bind (fun all => (List.forall_mem_cons.1 all).2) fun bs _ later => ?_
    exact .read (b :: bs) (List.forall_mem_cons.2 ⟨here, later⟩) rfl

end Asks

theorem asks_overlayMembers (v : Value) : Asks (v.isLayer = true) none
    (v.overlayMembers.mapError fun _ => Failure.shapeless) := by
  cases listed : v.overlayMembers with
  | ok members => exact .read members (Value.overlayMembers_eq_ok.1 listed).1 rfl
  | error fault => exact .shapeless (not_of_guarded (fun _ => Value.overlayMembers_eq_ok) listed)

namespace Endpoints

def Laid (default v : Value) : Prop :=
  default.opened.isLayer = true ∧ v.opened.isLayer = true

structure Layered (default byPath : Value) : Prop where
  paths : byPath.isLayer = true
  methods : ∀ m ∈ byPath.fields, m.2.isObject = true
  entries : ∀ m ∈ byPath.fields, ∀ entry ∈ m.2.fields, Laid default entry.2

variable {default byPath : Value} {path : String}

theorem asks_readEntry (method : Method) (v : Value) :
    Asks (Laid default v) none (readEntry default path method v) := by
  unfold readEntry
  split
  next failed => exact .shapeless (not_of_guarded (fun _ => Config.atop_eq_ok) failed)
  next laid =>
    have fits : Laid default v := (Config.atop_eq_ok.1 laid).1
    split
    next entry _ => exact .read entry fits rfl
    next => exact .faulty _

theorem asks_addMethods (methods : Fields) (r : Endpoints) :
    Asks (∀ entry ∈ methods, Laid default entry.2) none (addMethods default path r methods) := by
  induction methods generalizing r with
  | nil => exact (Asks.ok r).congr (by simp)
  | cons m rest ih =>
    obtain ⟨name, v⟩ := m
    rw [addMethods_cons]
    split
    next => exact .faulty _
    next method _ =>
      refine (asks_readEntry method v).bind (fun all => all _ List.mem_cons_self) fun _ _ laid => ?_
      rw [List.forall_mem_cons]
      exact (ih _).congr (and_iff_right laid).symm

theorem asks_addPaths (paths : Fields) (r : Endpoints) :
    Asks (∀ m ∈ paths, m.2.isObject = true ∧ ∀ entry ∈ m.2.fields, Laid default entry.2) none
      (addPaths default r paths) := by
  induction paths generalizing r with
  | nil => exact (Asks.ok r).congr (by simp)
  | cons m rest ih =>
    obtain ⟨path, byMethod⟩ := m
    cases listed : byMethod.objectMembers with
    | error fault =>
      rw [addPaths, listed]
      have other := not_of_guarded (fun _ => Value.objectMembers_eq_ok) listed
      exact .shapeless fun all => other (all _ List.mem_cons_self).1
    | ok methods =>
      rw [addPaths_cons listed]
      obtain ⟨object, rfl⟩ := Value.objectMembers_eq_ok.1 listed
      refine (asks_addMethods byMethod.fields r).bind (fun all => (all _ List.mem_cons_self).2)
        fun added _ laid => ?_
      rw [List.forall_mem_cons]
      exact (ih added).congr (and_iff_right ⟨object, laid⟩).symm

theorem asks_read : Asks (Layered default byPath) none (read default byPath) := by
  unfold read
  split
  next failed =>
    have other := not_of_guarded (fun _ => Value.overlayMembers_eq_ok) failed
    exact .shapeless fun layered => other layered.paths
  next paths listed =>
    obtain ⟨layer, rfl⟩ := Value.overlayMembers_eq_ok.1 listed
    refine (asks_addPaths byPath.fields empty).congr ⟨fun each => ?_, fun layered m member => ?_⟩
    · exact ⟨layer, fun m member => (each m member).1, fun m member => (each m member).2⟩
    · exact ⟨layered.methods m member, layered.entries m member⟩

end Endpoints

namespace Requests

structure Layered (default byType : Value) : Prop where
  types : byType.isLayer = true
  items : ∀ m ∈ byType.fields, ∀ item ∈ m.2.opened.parts,
    default.opened.isLayer = true ∧ item.isLayer = true

variable {default byType : Value}

theorem asks_readItems (typeName : String) (n : Nat) (items : List Value) :
    Asks True none (readItems typeName n items) := by
  induction items generalizing n with
  | nil => exact .ok []
  | cons v rest ih =>
    unfold readItems
    split
    next => exact .faulty _
    next request _ =>
      have others := (ih (n + 1)).map (f := (request :: ·))
      generalize readItems typeName (n + 1) rest = tail at others ⊢
      cases tail <;> exact others

theorem asks_readType {defaults : Config.Defaults} (m : String × Value) :
    Asks (∀ item ∈ m.2.parts, defaults.default.isLayer = true ∧ item.isLayer = true) none
      (readType defaults m) := by
  unfold readType
  split
  next failed => exact .shapeless (not_of_guarded (fun _ => Config.Defaults.laid_eq_ok) failed)
  next items laid =>
    have fits := (Config.Defaults.laid_eq_ok.1 laid).1
    exact (asks_readItems m.1 0 items).map.congr (by simpa using fits)
  next => exact .faulty _

theorem asks_read : Asks (Layered default byType) none (read default byType) := by
  unfold read Config.Defaults.make
  cases listed : byType.overlayMembers with
  | error fault =>
    have other := not_of_guarded (fun _ => Value.overlayMembers_eq_ok) listed
    exact .shapeless fun layered => other layered.types
  | ok members =>
    obtain ⟨layer, rfl⟩ := Value.overlayMembers_eq_ok.1 listed
    refine (Asks.mapM fun m _ => asks_readType m).map.congr ⟨fun each => ?_, fun layered => ?_⟩
    · exact ⟨layer, fun m member => each _ (List.mem_map_of_mem member)⟩
    · intro m member
      obtain ⟨n, inside, rfl⟩ := List.mem_map.1 member
      exact layered.items n inside

end Requests

theorem asks_table (config : Value) :
    Asks (config.isLayer = true) none (Pagination.Table.read config) := by
  unfold Pagination.Table.read
  split
  next failed => exact .shapeless (not_of_guarded (fun _ => Value.overlayMembers_eq_ok) failed)
  next members listed =>
    cases Pagination.Table.readDefinitions members >>= Pagination.Table.ofDefinitions with
    | ok table => exact .read table (Value.overlayMembers_eq_ok.1 listed).1 rfl
    | error fault => exact .faulty fault

namespace Definitions

structure ClientLayered (v : Value) : Prop where
  settings : v.isLayer = true
  endpoints : (v.under "endpoints").isLayer = true
  registered : Endpoints.Layered (v.along ["endpoints", "default"])
    (v.along ["endpoints", "customizations"])

/-- What is looked into for the definitions. -/
structure Layered (config : Value) : Prop where
  clients : (config.under "clients").isLayer = true
  options : (config.along ["clients", "options"]).isLayer = true
  client : ∀ m ∈ (config.along ["clients", "options"]).fields, ClientLayered m.2
  requests : (config.under "requests").isLayer = true
  registered : Requests.Layered (config.along ["requests", "default"])
    (config.along ["requests", "customizations"])
  paginations : (config.under "pagination").isLayer = true

/-- The default client that is named can be looked up. -/
def Keyed (config : Value) : Prop :=
  (config.along ["clients", "default"]).isKey = true

/-- The default client that is named can be put into the text of a fault. -/
def Written (config : Value) : Prop :=
  (config.along ["clients", "default"]).isWritable = true

def flawOf (default : Value) : Option Failure :=
  if default.isKey then if default.isWritable then none else some .unreadable else some .misfit

variable {available : List String}

theorem asks_memberOrNull (v : Value) (name : String) :
    Asks (v.isLayer = true) none (memberOrNull v name) := by
  unfold memberOrNull
  split
  next failed => exact .shapeless (not_of_guarded (fun _ => Value.overlayMembers_eq_ok) failed)
  next members listed => exact .read _ (Value.overlayMembers_eq_ok.1 listed).1 rfl

theorem asks_bind_memberOrNull {β : Type} {v : Value} {name : String} {layered : Prop}
    {flaw : Option Failure} {next : Value → Except Failure β} (needed : layered → v.isLayer = true)
    (later : v.isLayer = true → Asks layered flaw (next (v.under name))) :
    Asks layered flaw (memberOrNull v name >>= next) :=
  (asks_memberOrNull v name).bind_guarded (fun _ => memberOrNull_eq_ok) needed later

theorem asks_readClient (m : String × Value) :
    Asks (ClientLayered m.2) none (readClient available m) := by
  unfold readClient
  extract_lets rest
  split
  · exact .faulty _
  · refine asks_bind_memberOrNull (·.settings) fun settings => ?_
    refine asks_bind_memberOrNull (·.endpoints) fun endpoints => ?_
    refine asks_bind_memberOrNull (·.endpoints) fun _ => ?_
    refine Endpoints.asks_read.bind (·.registered) fun registry _ registered => ?_
    exact .read (m.1, registry) ⟨settings, endpoints, registered⟩ rfl

theorem asks_readDefault (clients : List (String × Endpoints)) (named : Value) :
    Asks True none (readDefault clients named) := by
  unfold readDefault
  split
  · split
    · exact .ok _
    · exact .faulty _
  · exact .ok _

theorem flawOf_eq_none {v : Value} : flawOf v = none ↔ v.isKey = true ∧ v.isWritable = true := by
  unfold flawOf
  cases v.isKey <;> cases v.isWritable <;> simp

theorem flawOf_eq_some {v : Value} {f : Failure} : flawOf v = some f ↔
    v.isKey = false ∧ f = .misfit ∨
      v.isKey = true ∧ v.isWritable = false ∧ f = .unreadable := by
  unfold flawOf
  cases v.isKey <;> cases v.isWritable <;> simp [eq_comm]

theorem isWritable_of_text? {v : Value} {name : String} (text : v.text? = some name) :
    v.isWritable = true := by
  cases v <;> first | rfl | cases text

theorem asks_checkDefault (clients : List (String × Endpoints)) (default : Value) :
    Asks True (flawOf default) (checkDefault clients default) := by
  unfold checkDefault Value.key flawOf
  cases key : default.isKey with
  | false => exact .flawed trivial rfl
  | true =>
    simp only [if_true, ok_bind]
    cases found : default.text?.filter (Members.has clients) with
    | some client =>
      obtain ⟨text, -⟩ := Option.filter_eq_some_iff.1 found
      rw [isWritable_of_text? text]
      exact .read client trivial rfl
    | none =>
      cases written : default.isWritable with
      | true =>
        simp only [Value.asText_of_isWritable written]
        exact .faulty _
      | false =>
        simp only [Value.asText_of_not_isWritable written]
        exact .flawed trivial rfl

theorem flawOf_readDefault {clients : List (String × Endpoints)} {named default : Value}
    (h : readDefault clients named = .ok default) : flawOf default = flawOf named := by
  cases named with
  | null =>
    simp only [readDefault] at h
    split at h
    · cases h
      rfl
    · cases h
  | _ =>
    cases h
    rfl

theorem asks_read (members : Fields) :
    Asks (Layered (.obj members)) (flawOf ((Value.obj members).along ["clients", "default"]))
      (read available (.obj members)) := by
  unfold read
  have present : ∀ name, member (.obj members) name = .ok ((Value.obj members).under name) :=
    fun _ => member_eq_ok.2 ⟨rfl, rfl⟩
  simp only [present, ok_bind, Value.objectMembers]
  refine asks_bind_memberOrNull (·.clients) fun settings => ?_
  refine (asks_overlayMembers _).bind_guarded
    (fun _ => mapError_guarded (fun _ => Value.overlayMembers_eq_ok) _) (·.options)
    fun options => ?_
  refine (Asks.mapM fun m _ => asks_readClient m).bind (·.client) fun clients _ client => ?_
  refine asks_bind_memberOrNull (·.clients) fun _ => ?_
  refine (asks_readDefault clients _).bind (fun _ => trivial) fun default named _ => ?_
  -- The members of the configuration itself are at hand.
  change Asks _ _ (memberOrNull _ "default" >>= _)
  refine asks_bind_memberOrNull (·.requests) fun requests => ?_
  refine asks_bind_memberOrNull (·.requests) fun _ => ?_
  refine Requests.asks_read.bind (·.registered) fun registry _ registered => ?_
  refine (asks_table _).bind (·.paginations) fun table _ paginations => ?_
  have layered : Layered (.obj members) :=
    ⟨settings, options, client, requests, registered, paginations⟩
  have last := asks_checkDefault clients default
  rw [flawOf_readDefault named] at last
  generalize checkDefault clients default = result at last ⊢
  cases last with
  | read name _ sound => exact .read _ layered sound
  | faulty fault => exact .faulty fault
  | shapeless unfit => exact absurd trivial unfit
  | flawed _ found => exact .flawed layered found

/-- Where a configuration is layered and its default client can be looked up and written, reading it
ends in definitions or in a definition fault. Otherwise it fails, and another failure than a
definition fault tells which of the three is missing. -/
theorem read_outcome (available : List String) (members : Fields) :
    (Layered (.obj members) → Keyed (.obj members) → Written (.obj members) →
      (∃ d, read available (.obj members) = .ok d) ∨
      ∃ fault, read available (.obj members) = .error (.definition fault)) ∧
    (¬ Layered (.obj members) →
      (∃ fault, read available (.obj members) = .error (.definition fault)) ∨
      read available (.obj members) = .error .shapeless) ∧
    (Layered (.obj members) → ¬ Keyed (.obj members) →
      (∃ fault, read available (.obj members) = .error (.definition fault)) ∨
      read available (.obj members) = .error .misfit) ∧
    (Layered (.obj members) → Keyed (.obj members) → ¬ Written (.obj members) →
      (∃ fault, read available (.obj members) = .error (.definition fault)) ∨
      read available (.obj members) = .error .unreadable) := by
  have asks : Asks _ _ (read available (.obj members)) := asks_read members
  unfold Keyed Written
  generalize read available (.obj members) = result at asks ⊢
  generalize (Value.obj members).along ["clients", "default"] = default at asks ⊢
  cases asks with
  | read d layered sound => simp [layered, flawOf_eq_none.1 sound]
  | faulty fault => simp
  | shapeless unlayered => simp [unlayered]
  | flawed layered found =>
    rcases flawOf_eq_some.1 found with ⟨unkeyed, rfl⟩ | ⟨keyed, unwritten, rfl⟩
    · simp [layered, unkeyed]
    · simp [layered, keyed, unwritten]

def serving (entries : Value) : Fields :=
  [("clients", .obj [("options", .obj [("main", .obj [("endpoints", .obj [("customizations",
    .obj [("/a", entries)])])])])])]

/-- A text in place of an entry is no definition fault. -/
theorem text_entry_shapeless :
    (Value.obj (serving (.obj [("get", .str "x")]))).isJson = true ∧
    read ["main"] (.obj (serving (.obj [("get", .str "x")]))) = .error .shapeless := by
  constructor <;> cbv

theorem object_entry_outcome :
    Layered (.obj (serving (.obj [("get", .obj [])]))) ∧
    Keyed (.obj (serving (.obj [("get", .obj [])]))) ∧
    Written (.obj (serving (.obj [("get", .obj [])]))) ∧
    ((∃ d, read ["main"] (.obj (serving (.obj [("get", .obj [])]))) = .ok d) ∨
      ∃ fault, read ["main"] (.obj (serving (.obj [("get", .obj [])]))) =
        .error (.definition fault)) := by
  have entry : Endpoints.Laid .null (.obj []) := ⟨rfl, rfl⟩
  have endpoints : Endpoints.Layered .null (.obj [("/a", .obj [("get", .obj [])])]) :=
    ⟨rfl, by simp [Value.fields, Value.isObject], by simp [Value.fields, entry]⟩
  have client : ClientLayered (.obj [("endpoints", .obj [("customizations",
      .obj [("/a", .obj [("get", .obj [])])])])]) :=
    ⟨rfl, rfl, endpoints⟩
  have requests : Requests.Layered .null .null := ⟨rfl, by simp [Value.fields]⟩
  have layered : Layered (.obj (serving (.obj [("get", .obj [])]))) :=
    ⟨rfl, rfl, List.forall_mem_singleton.2 client, rfl, requests, rfl⟩
  have keyed : Keyed (.obj (serving (.obj [("get", .obj [])]))) := rfl
  have written : Written (.obj (serving (.obj [("get", .obj [])]))) := rfl
  exact ⟨layered, keyed, written, (read_outcome ["main"] _).1 layered keyed written⟩

end Definitions

end Harvest.Registry
