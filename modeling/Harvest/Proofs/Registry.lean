import Harvest.Fetch
import Harvest.Proofs.Acceptance
import Harvest.Proofs.Parts

namespace Harvest

namespace Registry

open Config

structure Declaration where
  path : String
  name : String
  value : Value

namespace Declaration

def onPath (path : String) (methods : Fields) : List Declaration :=
  methods.map fun m => ⟨path, m.1, m.2⟩

def all (byPath : Value) : List Declaration :=
  byPath.fields.flatMap fun m => onPath m.1 m.2.fields

end Declaration

namespace Endpoints

variable {default : Value} {path : String} {declared : List Declaration}
  {puts : List (Address × Given Endpoint.Entry)} {r after : Endpoints}

def put (r : Endpoints) (p : Address × Given Endpoint.Entry) : Endpoints :=
  ⟨putEntry r.entries p.1 p.2⟩

structure Enters (default : Value) (declared : Declaration)
    (p : Address × Given Endpoint.Entry) : Prop where
  path : p.1.1 = declared.path
  method : Method.ofName? declared.name = some p.1.2
  entry : readEntry default declared.path p.1.2 declared.value = .ok p.2

theorem puts_of_addMethods {methods : Fields}
    (h : addMethods default path r methods = .ok after) : ∃ puts,
      List.Forall₂ (Enters default) (Declaration.onPath path methods) puts ∧
      after = puts.foldl put r := by
  induction methods generalizing r with
  | nil =>
    cases h
    exact ⟨[], .nil, rfl⟩
  | cons m rest ih =>
    obtain ⟨name, v⟩ := m
    rw [addMethods_cons] at h
    split at h
    next => cases h
    next method named =>
      obtain ⟨entry, entryRead, h⟩ := bind_eq_ok.1 h
      obtain ⟨puts, each, rfl⟩ := ih h
      exact ⟨((path, method), entry) :: puts, .cons ⟨rfl, named, entryRead⟩ each, rfl⟩

theorem puts_of_addPaths {paths : Fields} (h : addPaths default r paths = .ok after) : ∃ puts,
    List.Forall₂ (Enters default)
      (paths.flatMap fun m => Declaration.onPath m.1 m.2.fields) puts ∧
      after = puts.foldl put r := by
  induction paths generalizing r with
  | nil =>
    cases h
    exact ⟨[], .nil, rfl⟩
  | cons m rest ih =>
    obtain ⟨path, byMethod⟩ := m
    cases listed : byMethod.objectMembers with
    | error =>
      rw [addPaths, listed] at h
      cases h
    | ok methods =>
      rw [addPaths_cons listed] at h
      obtain ⟨-, rfl⟩ := Value.objectMembers_eq_ok.1 listed
      obtain ⟨added, here, h⟩ := bind_eq_ok.1 h
      obtain ⟨first, eachFirst, rfl⟩ := puts_of_addMethods here
      obtain ⟨puts, each, rfl⟩ := ih h
      exact ⟨first ++ puts, List.rel_append eachFirst each, List.foldl_append.symm⟩

theorem puts_of_read {byPath : Value} (h : read default byPath = .ok r) : ∃ puts,
    List.Forall₂ (Enters default) (Declaration.all byPath) puts ∧ r = puts.foldl put empty := by
  unfold read at h
  split at h
  next => cases h
  next paths listed =>
    obtain ⟨-, rfl⟩ := Value.overlayMembers_eq_ok.1 listed
    exact puts_of_addPaths h

def Sound (r : Endpoints) : Prop :=
  ∀ e ∈ r.entries, e.2.Sound .endpointEntry

theorem Sound.putEntry (sound : r.Sound) {address : Address} {entry : Given Endpoint.Entry}
    (new : entry.Sound .endpointEntry) : Sound ⟨putEntry r.entries address entry⟩ := by
  intro e member
  unfold Registry.putEntry at member
  split at member
  · obtain ⟨before, inside, rfl⟩ := List.mem_map.1 member
    split
    · exact new
    · exact sound before inside
  · rcases List.mem_append.1 member with before | last
    · exact sound e before
    · rw [List.mem_singleton.1 last]
      exact new

theorem sound_of_readEntry {v : Value} {method : Method} {entry : Given Endpoint.Entry}
    (h : readEntry default path method v = .ok entry) : entry.Sound .endpointEntry := by
  unfold readEntry at h
  split at h
  next => cases h
  next members _ =>
    split at h
    next read =>
      cases h
      exact Given.sound_of_readClosed (v := .obj members) (by rintro _ _ _ ⟨⟩) read
    next => cases h

theorem Sound.foldl_put (sound : r.Sound) (each : List.Forall₂ (Enters default) declared puts) :
    (puts.foldl put r).Sound := by
  induction each generalizing r with
  | nil => exact sound
  | cons head _ ih => exact ih (sound.putEntry (sound_of_readEntry head.entry))

theorem sound_of_read {byPath : Value} (h : read default byPath = .ok r) : r.Sound := by
  obtain ⟨puts, each, rfl⟩ := puts_of_read h
  exact Sound.foldl_put (by rintro _ ⟨⟩) each

theorem Sound.query (sound : r.Sound) {method : Method} {entry : Given Endpoint.Entry}
    (found : r.query path method = some entry) : entry.Sound .endpointEntry := by
  obtain ⟨e, first, rfl⟩ := Option.map_eq_some_iff.1 found
  exact sound e (List.mem_of_find?_eq_some first)

end Endpoints

end Registry

namespace Pagination.Table

theorem result_lookup {t : Table} {id : Value} (given : id ≠ .null) (key : id.isKey = true) :
    (t.lookup id).result = (id.text?.bind (Members.get? t.definitions)).elim
      (.error (notFound id)) .ok := by
  have keyed : (Noted.lift id.key).result = .ok id.text? := if_pos key
  cases id with
  | null => exact absurd rfl given
  | _ =>
    simp only [lookup]
    rw [Noted.result_bind_of_ok keyed]
    split
    next found => rw [found]; rfl
    next missing => rw [missing]; rfl

theorem result_lookup_text (t : Table) (id : String) : (t.lookup (.str id)).result =
    (Members.get? t.definitions id).elim
      (.error (.definition (.paginationNotFound (.str id)))) .ok :=
  result_lookup nofun rfl

theorem result_lookup_of_unknown {t : Table} {id : Value} (given : id ≠ .null)
    (key : id.isKey = true) (written : id.isWritable = true)
    (unknown : ∀ name ∈ t.ids, id ≠ .str name) :
    (t.lookup id).result = .error (.definition (.paginationNotFound id)) := by
  have missing : id.text?.bind (Members.get? t.definitions) = none := by
    refine Option.bind_eq_none_iff.2 fun name text => ?_
    refine Members.get?_eq_none_iff.2 fun known => unknown name known ?_
    cases id <;> cases text
    rfl
  rw [result_lookup given key, missing]
  exact congrArg Except.error (if_pos written)

theorem result_lookup_of_unwritten {t : Table} {id : Value} (key : id.isKey = true)
    (unwritten : id.isWritable = false) : (t.lookup id).result = .error .unreadable := by
  have given : id ≠ .null := by
    rintro rfl
    cases unwritten
  have textless : id.text? = none := by
    cases id with
    | str => cases unwritten
    | _ => rfl
  rw [result_lookup given key, textless]
  exact congrArg Except.error (if_neg (by simp [unwritten]))

end Pagination.Table

namespace Registry.Definitions

variable {available : List String} {config : Value} {d : Definitions}

theorem client_of_read (h : read available config = .ok d) {client : String × Endpoints}
    (member : client ∈ d.clients) : client.1 ∈ available ∧ client.2.Sound := by
  obtain ⟨n, found⟩ := List.getElem?_of_mem member
  obtain ⟨m, -, clientRead⟩ := getElem?_of_forall₂ (sections_of_read h).clients.flip found
  obtain ⟨present, named, endpointsRead⟩ := readClient_eq_ok clientRead
  exact ⟨named ▸ present, Endpoints.sound_of_read endpointsRead⟩

theorem available_of_read (h : read available config = .ok d) {client : String}
    (defined : client ∈ d.clientNames) : client ∈ available := by
  obtain ⟨entry, member, rfl⟩ := List.mem_map.1 defined
  exact (client_of_read h member).1

theorem sound_of_query (h : read available config = .ok d) {client path : String} {method : Method}
    {entry : Config.Given Endpoint.Entry}
    (found : d.queryEndpoint client path method = some entry) : entry.Sound .endpointEntry := by
  obtain ⟨endpoints, listed, queried⟩ := Option.bind_eq_some_iff.1 found
  exact (client_of_read h (Members.mem_of_get? listed)).2.query queried

theorem mem_clientNames_of_query {client path : String} {method : Method}
    {entry : Config.Given Endpoint.Entry} (h : d.queryEndpoint client path method = some entry) :
    client ∈ d.clientNames := by
  obtain ⟨endpoints, found, -⟩ := Option.bind_eq_some_iff.1 h
  exact List.mem_map_of_mem (Members.mem_of_get? found)

end Registry.Definitions

theorem Fetch.jobs_eq_ok {definitions : Registry.Definitions} {pool : Value}
    {requests : List Request} {jobs : List Job}
    (h : (Fetch.jobs definitions pool requests).result = .ok jobs) :
    List.Forall₂ (fun request job => (Plan.make definitions request).result = .ok job.plan ∧
      (Pool.contexts pool (job.plan.roots.map .named)).result = .ok job.contexts) requests jobs := by
  induction requests generalizing jobs with
  | nil =>
    cases h
    exact .nil
  | cons request rest ih =>
    unfold Fetch.jobs at h
    obtain ⟨p, made, h⟩ := Noted.bind_eq_ok.1 h
    obtain ⟨contexts, combined, h⟩ := Noted.bind_eq_ok.1 h
    obtain ⟨others, bound, h⟩ := Noted.bind_eq_ok.1 h
    cases h
    exact .cons ⟨made, combined⟩ (ih bound)

end Harvest
