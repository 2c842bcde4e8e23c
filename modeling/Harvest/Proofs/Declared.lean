import Mathlib
import Harvest.Proofs.Registry

namespace Harvest

open Config

theorem Method.ofName?_eq_some_iff {s : String} {method : Method} :
    ofName? s = some method ↔ s.map Char.toLower = method.name := by
  constructor
  · intro found
    have same := List.find?_some found
    exact (eq_of_beq same).symm
  · intro same
    rw [ofName?, same]
    cases method <;> rfl

namespace Members

variable {α β : Type} {R : String → α → β → Prop} {before : List (String × α)}
  {after : List (String × β)}

theorem keys_eq_of_forall₂ (all : List.Forall₂ (fun a b => b.1 = a.1) before after) :
    keys after = keys before := by
  induction all with
  | nil => rfl
  | cons head _ ih => exact congrArg₂ List.cons head ih

theorem get?_rel (all : List.Forall₂ (fun a b => b.1 = a.1 ∧ R a.1 a.2 b.2) before after)
    (name : String) : Option.Rel (R name) (get? before name) (get? after name) := by
  induction all with
  | nil => exact .none
  | @cons a b _ _ head _ ih =>
    obtain ⟨k, v⟩ := a
    obtain ⟨k', w⟩ := b
    obtain ⟨rfl, related⟩ := head
    by_cases here : k' = name
    · subst here
      simp only [get?, if_true]
      exact .some related
    · simpa only [get?, if_neg here] using ih

@[simp] theorem keys_append (ms others : List (String × α)) :
    keys (ms ++ others) = keys ms ++ keys others :=
  List.map_append

theorem get?_append (ms others : List (String × α)) (name : String) :
    get? (ms ++ others) name = (get? ms name).or (get? others name) := by
  induction ms with
  | nil => rfl
  | cons m rest ih =>
    obtain ⟨k, v⟩ := m
    by_cases here : k = name
    · simp [get?, here]
    · simpa [get?, here] using ih

end Members

namespace Registry

namespace Declaration

def isOf (path : String) (method : Method) (declared : Declaration) : Bool :=
  declared.path == path && declared.name.map Char.toLower == method.name

def last? (declared : List Declaration) (path : String) (method : Method) : Option Value :=
  (declared.filter (isOf path method)).getLast?.map (·.value)

variable {declared : List Declaration} {path : String} {method : Method}

theorem last?_concat (new : Declaration) : last? (declared ++ [new]) path method =
    if new.isOf path method then some new.value else last? declared path method := by
  unfold last?
  split
  next here => simp [here]
  next other => simp [other]

theorem isSome_last? : (last? declared path method).isSome = true ↔
    ∃ d ∈ declared, d.isOf path method = true := by
  simp [last?]

end Declaration

namespace Endpoints

section

variable {entries : List (Address × Given Endpoint.Entry)} {address : Address} {path : String}
  {method : Method} (entry : Given Endpoint.Entry)

theorem query_putEntry_self :
    query ⟨putEntry entries (path, method) entry⟩ path method = some entry := by
  unfold query putEntry
  split
  next present =>
    induction entries with
    | nil => cases present
    | cons e rest ih =>
      by_cases same : e.1 = (path, method)
      · simp [same]
      · have later : (rest.any (·.1 == (path, method))) = true := by simpa [same] using present
        simpa [same] using ih later
  next absent =>
    have missing : entries.find? (·.1 == (path, method)) = none :=
      List.find?_eq_none.2 fun e member same => absent (List.any_eq_true.2 ⟨e, member, same⟩)
    simp [List.find?_append, missing]

theorem query_putEntry_of_ne (other : address ≠ (path, method)) :
    query ⟨putEntry entries address entry⟩ path method = query ⟨entries⟩ path method := by
  have kept : ∀ e : Address × Given Endpoint.Entry,
      ((if e.1 == address then (address, entry) else e).1 == (path, method)) =
        (e.1 == (path, method)) := by
    intro e
    by_cases same : e.1 = address <;> simp [same]
  unfold query putEntry
  split
  next =>
    rw [List.find?_map, Option.map_map]
    simp only [Function.comp_def, kept]
    refine Option.map_congr fun e found => ?_
    have hit := List.find?_some found
    have here : e.1 = (path, method) := eq_of_beq hit
    have apart : e.1 ≠ address := fun same => other (same.symm.trans here)
    simp [apart]
  next => simp [List.find?_append, other]

end

def Fits (default v : Value) (entry : Given Endpoint.Entry) : Prop :=
  Endpoint.Entry.read (.obj (atop default.opened v.opened)) = .ok entry

/-- What was declared so far, and nothing else, is registered. -/
def Holds (default : Value) (declared : List Declaration) (r : Endpoints) : Prop :=
  ∀ path method, Option.Rel (Fits default) (Declaration.last? declared path method)
    (r.query path method)

variable {default : Value} {before declared : List Declaration} {r : Endpoints}

theorem fits_of_readEntry {path : String} {method : Method} {v : Value}
    {entry : Given Endpoint.Entry} (read : readEntry default path method v = .ok entry) :
    Fits default v entry := by
  unfold readEntry at read
  split at read
  next => cases read
  next members laid =>
    obtain ⟨-, rfl⟩ := atop_eq_ok.1 laid
    split at read
    next accepted =>
      cases read
      exact accepted
    next => cases read

theorem Enters.fits {new : Declaration} {p : Address × Given Endpoint.Entry}
    (enters : Enters default new p) : Fits default new.value p.2 :=
  fits_of_readEntry enters.entry

theorem Holds.enter (holds : Holds default before r) {new : Declaration}
    {p : Address × Given Endpoint.Entry} (enters : Enters default new p) :
    Holds default (before ++ [new]) (r.put p) := by
  obtain ⟨⟨path, method⟩, entry⟩ := p
  obtain rfl : path = new.path := enters.path
  have lower := Method.ofName?_eq_some_iff.1 enters.method
  intro place other
  rw [Declaration.last?_concat, Endpoints.put]
  by_cases same : (new.path, method) = (place, other)
  · obtain ⟨rfl, rfl⟩ := Prod.mk.inj same
    rw [query_putEntry_self, if_pos (by simp [Declaration.isOf, lower])]
    exact .some enters.fits
  -- Names in other cases stand for the same method, never for another one.
  · have elsewhere : ¬ (new.isOf place other = true) := by
      simp only [Declaration.isOf, Bool.and_eq_true, beq_iff_eq]
      rintro ⟨rfl, also⟩
      have named : some other = some method :=
        (Method.ofName?_eq_some_iff.2 also).symm.trans enters.method
      exact same (congrArg _ (Option.some.inj named).symm)
    rw [query_putEntry_of_ne entry same, if_neg elsewhere]
    exact holds place other

theorem Holds.foldl_put {puts : List (Address × Given Endpoint.Entry)}
    (holds : Holds default before r) (each : List.Forall₂ (Enters default) declared puts) :
    Holds default (before ++ declared) (puts.foldl put r) := by
  induction each generalizing before r with
  | nil => simpa using holds
  | cons head _ ih =>
    have further := ih (holds.enter head)
    rwa [List.append_assoc] at further

theorem holds_of_read {byPath : Value} (h : read default byPath = .ok r) :
    Holds default (Declaration.all byPath) r := by
  obtain ⟨puts, each, rfl⟩ := puts_of_read h
  have fresh : Holds default [] empty := fun _ _ => .none
  exact fresh.foldl_put each

end Endpoints

end Registry

namespace Pagination.Table

def Fits (id : String) (v : Value) (definition : Definition) : Prop :=
  definition.id = id ∧ ∃ entry type, Entry.read v = .ok entry ∧
    StrategyType.ofName? entry.value.type = some type ∧
    type.make entry.value.params = .ok definition.strategy ∧
    definition.clientArgs = entry.value.clientArgs

variable {config v : Value} {t : Table} {definition : Definition}

theorem fits_of_readDefinition {id : String} (h : readDefinition id v = .ok definition) :
    Fits id v definition := by
  unfold readDefinition at h
  split at h
  next => cases h
  next entry entryRead =>
    split at h
    next => cases h
    next type known =>
      split at h
      next => cases h
      next strategy made =>
        cases h
        exact ⟨rfl, entry, type, entryRead, known, made, rfl⟩

theorem definitions_of_read (h : read config = .ok t) : ∃ definitions,
    List.Forall₂ (fun m n => n.1 = m.1 ∧ Fits m.1 m.2 n.2) config.fields definitions ∧
    noPagination ∉ Members.keys definitions ∧
    t.definitions = definitions ++ [(noPagination, .single)] := by
  unfold read at h
  split at h
  next => cases h
  next members listed =>
    obtain ⟨-, rfl⟩ := Value.overlayMembers_eq_ok.1 listed
    cases whole : readDefinitions config.fields >>= ofDefinitions with
    | error fault =>
      rw [whole] at h
      cases h
    | ok table =>
      rw [whole] at h
      cases h
      obtain ⟨definitions, each, h⟩ := bind_eq_ok.1 whole
      have fits : List.Forall₂ (fun m n => n.1 = m.1 ∧ Fits m.1 m.2 n.2) config.fields
          definitions := by
        refine (mapM_eq_ok.1 each).imp fun m n read => ?_
        obtain ⟨definition, definitionRead, rfl⟩ := map_eq_ok.1 read
        exact ⟨rfl, fits_of_readDefinition definitionRead⟩
      unfold ofDefinitions at h
      split at h
      · cases h
      next free =>
        cases h
        exact ⟨definitions, fits, by simpa [Members.has_iff] using free, rfl⟩

end Pagination.Table

theorem Value.openedItems_eq_map (items : List Value) : openedItems items = items.map opened := by
  induction items with
  | nil => rfl
  | cons v rest ih => rw [openedItems, ih, List.map_cons]

theorem Value.opened_eq_arr {v : Value} {items : List Value} :
    v.opened = .arr items ↔ ∃ entries, v = .arr entries ∧ items = entries.map opened := by
  cases v with
  | arr entries => simp [opened, openedItems_eq_map, eq_comm]
  | _ => simp [opened, given]

namespace Registry

namespace Requests

def Fits (default v : Value) (requests : List (Given Request)) : Prop :=
  ∃ entries, v = .arr entries ∧ List.Forall₂ (fun entry request =>
    Request.read (.obj (atop default.opened entry.opened)) = .ok request) entries requests

def Laid (default v : Value) : Prop :=
  ∀ item ∈ v.opened.parts, default.opened.isLayer = true ∧ item.isLayer = true

variable {default byType v : Value} {typeName : String} {requests : List (Given Request)}
  {r : Requests}

theorem readItems_eq_ok {n : Nat} {items : List Value} :
    readItems typeName n items = .ok requests ↔
      List.Forall₂ (fun item request => Request.read item = .ok request) items requests := by
  induction items generalizing n requests with
  | nil => cases requests <;> simp [readItems]
  | cons v rest ih =>
    unfold readItems
    split
    next issues refused =>
      refine iff_of_false nofun fun all => ?_
      cases all with
      | cons head _ =>
        rw [refused] at head
        cases head
    next request accepted =>
      constructor
      · intro h
        split at h
        next others tail =>
          cases h
          exact .cons accepted (ih.1 tail)
        next => cases h
      · intro all
        cases all with
        | cons head tail =>
          obtain rfl : request = _ := Config.Checked.ok.inj (accepted.symm.trans head)
          rw [ih.2 tail]

theorem readType_eq_ok {named : Fields} {n : String × List (Given Request)} :
    readType ⟨default.opened, named⟩ (typeName, v.opened) = .ok n ↔
      n.1 = typeName ∧ Laid default v ∧ Fits default v n.2 := by
  constructor
  · intro h
    unfold readType at h
    split at h
    next => cases h
    next items laid =>
      obtain ⟨requests, listed, rfl⟩ := map_eq_ok.1 h
      obtain ⟨layers, same⟩ := Defaults.laid_eq_ok.1 laid
      obtain ⟨opened, listOpened, rfl⟩ := Defaults.atop_eq_arr.1 same.symm
      obtain ⟨entries, rfl, rfl⟩ := Value.opened_eq_arr.1 listOpened
      refine ⟨rfl, layers, entries, rfl, ?_⟩
      simpa [readItems_eq_ok, List.forall₂_map_left_iff] using listed
    next => cases h
  · rintro ⟨rfl, layers, entries, rfl, all⟩
    have opened : (Value.arr entries).opened = .arr (entries.map Value.opened) :=
      Value.opened_eq_arr.2 ⟨entries, rfl, rfl⟩
    have laid : (Defaults.mk default.opened named).laid (Value.arr entries).opened = _ :=
      Defaults.laid_eq_ok.2 ⟨layers, rfl⟩
    rw [opened] at laid
    have listed : readItems n.1 0 ((entries.map Value.opened).map fun entry =>
        .obj (atop default.opened entry)) = .ok n.2 := by
      rw [readItems_eq_ok, List.forall₂_map_left_iff, List.forall₂_map_left_iff]
      exact all
    unfold readType
    rw [opened, laid]
    exact congrArg (Except.map _) listed

theorem read_eq_ok : read default byType = .ok r ↔ byType.isLayer = true ∧ List.Forall₂
    (fun m n => n.1 = m.1 ∧ Laid default m.2 ∧ Fits default m.2 n.2) byType.fields r.byType := by
  unfold read Defaults.make
  cases listed : byType.overlayMembers with
  | error fault =>
    have other := not_of_guarded (fun _ => Value.overlayMembers_eq_ok) listed
    exact iff_of_false nofun fun both => other both.1
  | ok members =>
    obtain ⟨layer, rfl⟩ := Value.overlayMembers_eq_ok.1 listed
    have types : ∀ types, (byType.fields.map fun m => (m.1, m.2.opened)).mapM
        (readType ⟨default.opened, byType.fields.map fun m => (m.1, m.2.opened)⟩) = .ok types ↔
        List.Forall₂ (fun m n => n.1 = m.1 ∧ Laid default m.2 ∧ Fits default m.2 n.2) byType.fields
          types := by
      intro types
      rw [mapM_eq_ok, List.forall₂_map_left_iff]
      simp only [readType_eq_ok]
    rw [← types, and_iff_right layer]
    refine map_eq_ok.trans ⟨?_, fun each => ⟨r.byType, each, rfl⟩⟩
    rintro ⟨all, each, rfl⟩
    exact each

end Requests

namespace Definitions

def endpointsOf (config : Value) (client : String) : Value :=
  ((config.along ["clients", "options"]).under client).under "endpoints"

def declaredFor (config : Value) (client : String) : List Declaration :=
  Declaration.all ((endpointsOf config client).under "customizations")

def paginationsOf (config : Value) : Fields :=
  (config.under "pagination").fields

def requestsOf (config : Value) : Fields :=
  (config.along ["requests", "customizations"]).fields

/-- The definitions are those that the configuration declares. -/
structure Declares (config : Value) (d : Definitions) : Prop where
  clients : d.clientNames = Members.keys (config.along ["clients", "options"]).fields
  registered : ∀ client path method, (d.queryEndpoint client path method).isSome = true ↔
    ∃ declared ∈ declaredFor config client, declared.path = path ∧
      declared.name.map Char.toLower = method.name
  entry : ∀ client path method declared,
    ((declaredFor config client).filter (Declaration.isOf path method)).getLast? = some declared →
    ∃ entry, d.queryEndpoint client path method = some entry ∧
      Endpoints.Fits ((endpointsOf config client).under "default") declared.value entry
  ids : d.paginations.ids = Members.keys (paginationsOf config) ++ [Pagination.noPagination]
  unreserved : Pagination.noPagination ∉ Members.keys (paginationsOf config)
  pagination : ∀ id v, Members.get? (paginationsOf config) id = some v → ∃ definition,
    (d.paginations.lookup (.str id)).result = .ok definition ∧
      Pagination.Table.Fits id v definition
  single : (d.paginations.lookup (.str Pagination.noPagination)).result = .ok .single
  unknown : ∀ id : Value, id ≠ .null → id.isKey = true → id.isWritable = true →
    (∀ name ∈ d.paginations.ids, id ≠ .str name) →
    (d.paginations.lookup id).result = .error (.definition (.paginationNotFound id))
  unwritten : ∀ id : Value, id.isKey = true → id.isWritable = false →
    (d.paginations.lookup id).result = .error .unreadable
  requests : ∀ typeName v, Members.get? (requestsOf config) typeName = some v →
    Requests.Fits (config.along ["requests", "default"]) v (d.requests.query typeName)
  others : ∀ typeName ∉ Members.keys (requestsOf config), d.requests.query typeName = []
  defaultClient : d.defaultClient ∈ d.clientNames

variable {available : List String} {config : Value} {d : Definitions}

theorem clients_of_sections (sections : Sections available config d) :
    List.Forall₂ (fun m client => client.1 = m.1 ∧
      Endpoints.read (m.2.along ["endpoints", "default"])
        (m.2.along ["endpoints", "customizations"]) = .ok client.2)
      (config.along ["clients", "options"]).fields d.clients :=
  sections.clients.imp fun _ _ read => (readClient_eq_ok read).2

theorem queryEndpoint_rel (sections : Sections available config d) (client path : String)
    (method : Method) :
    Option.Rel (Endpoints.Fits ((endpointsOf config client).under "default"))
      (Declaration.last? (declaredFor config client) path method)
      (d.queryEndpoint client path method) := by
  have found := Members.get?_rel (R := fun _ (v : Value) r => Endpoints.read
    (v.along ["endpoints", "default"]) (v.along ["endpoints", "customizations"]) = .ok r)
    (clients_of_sections sections) client
  have settings : endpointsOf config client = ((Members.get?
    (config.along ["clients", "options"]).fields client).getD .null).under "endpoints" := rfl
  rw [queryEndpoint, declaredFor, settings]
  cases configured : Members.get? (config.along ["clients", "options"]).fields client with
  | none =>
    rw [configured] at found
    rw [eq_none_of_rel found]
    exact .none
  | some v =>
    rw [configured] at found
    obtain ⟨r, built, read⟩ := exists_of_rel found
    rw [built]
    exact Endpoints.holds_of_read read path method

theorem checkDefault_eq_ok {clients : List (String × Endpoints)} {default : Value} {client : String}
    (h : checkDefault clients default = .ok client) : client ∈ Members.keys clients := by
  obtain ⟨name, -, h⟩ := bind_eq_ok.1 h
  split at h
  next known =>
    cases h
    exact Members.has_iff.1 (Option.filter_eq_some_iff.1 known).2
  next =>
    obtain ⟨_, -, failed⟩ := bind_eq_ok.1 h
    cases failed

theorem declares_of_read (h : read available config = .ok d) : Declares config d := by
  have sections := sections_of_read h
  have endpoint := queryEndpoint_rel sections
  obtain ⟨definitions, fits, unreserved, all⟩ :=
    Pagination.Table.definitions_of_read sections.paginations
  have listed := (Requests.read_eq_ok.1 sections.requests).2.imp fun _ _ whole =>
    And.intro whole.1 whole.2.2
  have names : Members.keys definitions = Members.keys (paginationsOf config) :=
    Members.keys_eq_of_forall₂ (fits.imp fun _ _ both => both.1)
  have lookups : ∀ name, Members.get? d.paginations.definitions name =
      (Members.get? definitions name).or
        (Members.get? [(Pagination.noPagination, .single)] name) := by
    intro name
    rw [all, Members.get?_append]
  constructor
  case clients =>
    exact Members.keys_eq_of_forall₂ ((clients_of_sections sections).imp fun _ _ both => both.1)
  case registered =>
    intro client path method
    rw [isSome_of_rel (endpoint client path method), Declaration.isSome_last?]
    simp [Declaration.isOf]
  case entry =>
    intro client path method declared last
    have here : Declaration.last? (declaredFor config client) path method = some declared.value :=
      congrArg (Option.map _) last
    have found := endpoint client path method
    rw [here] at found
    exact exists_of_rel found
  case ids => rw [Pagination.Table.ids, all, Members.keys_append, names]; rfl
  case unreserved => exact names ▸ unreserved
  case pagination =>
    intro id v configured
    have found := Members.get?_rel fits id
    rw [← paginationsOf, configured] at found
    obtain ⟨definition, held, fit⟩ := exists_of_rel found
    refine ⟨definition, ?_, fit⟩
    rw [Pagination.Table.result_lookup_text, lookups, held]
    rfl
  case single =>
    rw [Pagination.Table.result_lookup_text, lookups, Members.get?_eq_none_iff.2 unreserved]
    rfl
  case unknown =>
    intro id given key written strange
    exact Pagination.Table.result_lookup_of_unknown given key written strange
  case unwritten =>
    intro id key unwritten
    exact Pagination.Table.result_lookup_of_unwritten key unwritten
  case requests =>
    intro typeName v configured
    have found := Members.get?_rel (R := fun _ => Requests.Fits _) listed typeName
    rw [← requestsOf, configured] at found
    obtain ⟨requests, held, fit⟩ := exists_of_rel found
    rw [Requests.query, held]
    exact fit
  case others =>
    intro typeName undeclared
    have found := Members.get?_rel (R := fun _ => Requests.Fits _) listed typeName
    rw [← requestsOf, Members.get?_eq_none_iff.2 undeclared] at found
    rw [Requests.query, eq_none_of_rel found]
    rfl
  case defaultClient =>
    obtain ⟨named, -, checked⟩ := sections.default
    exact checkDefault_eq_ok checked

def declaring : Value :=
  .obj [
    ("clients", .obj [("options", .obj [("main", .obj [("endpoints", .obj [
      ("default", .obj [("readonly", .bool true)]),
      ("customizations", .obj [("/a", .obj [("get", .obj []),
        ("GET", .obj [("pagination", .str "links")])])])])])])]),
    ("pagination", .obj [("links", .obj [("type", .str "cursor"),
      ("params", .obj [("cursor_field", .str "next")])])]),
    ("requests", .obj [("customizations", .obj [("T", .arr [
      .obj [("endpoint", .obj [("path", .str "/a")])],
      .obj [("endpoint", .obj [("path", .str "/b")])]])])])]

theorem declaring_declares : ∃ d, read ["main"] declaring = .ok d ∧ Declares declaring d := by
  have accepted : (read ["main"] declaring).isOk = true := by cbv
  cases built : read ["main"] declaring with
  | ok d => exact ⟨d, rfl, declares_of_read built⟩
  | error failure =>
    rw [built] at accepted
    cases accepted

end Definitions

end Registry

end Harvest
