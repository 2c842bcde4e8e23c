import Mathlib
import Harvest.Fetch
import Harvest.Proofs.Json.ReadBack
import Harvest.Proofs.Pool
import Harvest.Proofs.Schedule.Job
import Harvest.Proofs.Substitution
import Harvest.Proofs.Template.Reading

namespace Harvest

theorem Template.splitPath_eq (path : String) :
    ∃ rest, Value.splitPath path = Template.root path :: rest := by
  have split : ∀ cs : List Char, ∃ rest, cs.splitOn '.' = cs.takeWhile (· != '.') :: rest := by
    intro cs
    induction cs with
    | nil => exact ⟨[], rfl⟩
    | cons c cs ih =>
      obtain ⟨rest, same⟩ := ih
      rw [List.splitOn_cons_eq_if_modifyHead, same]
      by_cases point : c = '.'
      · exact ⟨cs.takeWhile (· != '.') :: rest, by simp [point]⟩
      · exact ⟨rest, by simp [point]⟩
  obtain ⟨rest, same⟩ := split path.toList
  exact ⟨rest.map String.ofList, by rw [Value.splitPath, same, List.map_cons, Template.root]⟩

namespace Template

theorem lookup_congr {c c' : Fields} {name : String}
    (agree : Members.get? c (root name) = Members.get? c' (root name)) :
    Value.lookup (.obj c) name = Value.lookup (.obj c') name := by
  obtain ⟨rest, split⟩ := splitPath_eq name
  simp only [Value.lookup, split, Value.follow, Value.child, agree]

def Agree (context context' : Value) (names : List String) : Prop :=
  ∀ name ∈ names, Value.lookup context name = Value.lookup context' name

section Congruence

variable {context context' : Value}

theorem Agree.append {names others : List String} (agree : Agree context context' (names ++ others)) :
    Agree context context' names ∧ Agree context context' others :=
  List.forall_mem_append.1 agree

theorem fillPieces_congr {ps : List Piece} (agree : Agree context context' (holes ps)) :
    fillPieces context ps = fillPieces context' ps := by
  induction ps with
  | nil => rfl
  | cons p rest ih =>
    cases p with
    | char c => rw [fillPieces, fillPieces, ih agree]
    | hole name =>
      have later := ih fun other member => agree other (.tail name member)
      rw [fillPieces, fillPieces, later, found?, found?, agree name (by simp)]

theorem fillString_congr {s : String} (agree : Agree context context' (holes (pieces s))) :
    fillString context s = fillString context' s := by
  unfold fillString
  split
  next name lone =>
    rw [found?, found?, agree name (by simp [lone])]
  next => rw [fillPieces_congr agree]

theorem fillItems_congr {items : List Value}
    (each : ∀ v ∈ items, Agree context context' (names v) → fill context v = fill context' v)
    (agree : Agree context context' (namesOfItems items)) :
    fillItems context items = fillItems context' items := by
  induction items with
  | nil => rfl
  | cons v rest ih =>
    obtain ⟨here, behind⟩ := agree.append
    rw [fillItems, fillItems, each v (by simp) here,
      ih (fun w member => each w (.tail v member)) behind]

theorem fillMembers_congr_of {members : Fields}
    (each : ∀ m ∈ members, Agree context context' (names m.2) → fill context m.2 = fill context' m.2)
    (agree : Agree context context' (namesOfMembers members)) :
    fillMembers context members = fillMembers context' members := by
  induction members with
  | nil => rfl
  | cons m rest ih =>
    obtain ⟨name, v⟩ := m
    obtain ⟨here, behind⟩ := agree.append
    rw [fillMembers, fillMembers, each (name, v) (by simp) here,
      ih (fun n member => each n (.tail _ member)) behind]

theorem fill_congr {v : Value} (agree : Agree context context' (names v)) :
    fill context v = fill context' v := by
  induction v using Value.parts_induction with
  | str s => exact fillString_congr agree
  | arr items ih => rw [fill, fill, fillItems_congr ih agree]
  | obj members ih => rw [fill, fill, fillMembers_congr_of ih agree]
  | null | bool | int | double | hook | record => rfl

theorem fillMembers_congr {members : Fields}
    (agree : Agree context context' (namesOfMembers members)) :
    fillMembers context members = fillMembers context' members :=
  fillMembers_congr_of (fun _ _ => fill_congr) agree

theorem filled_congr {call : Call} (agree : Agree context context' (names call.template)) :
    call.filled context = call.filled context' := by
  obtain ⟨path, agree⟩ := agree.append
  obtain ⟨queryArgs, agree⟩ := agree.append
  obtain ⟨headers, agree⟩ := agree.append
  obtain ⟨body, -⟩ := agree.append
  rw [Call.filled, Call.filled, fillString_congr path, fillMembers_congr queryArgs,
    fillMembers_congr headers, fill_congr body]

end Congruence

theorem Reads.proper {cs : List Char} {ps : List Piece} (read : Reads cs ps) :
    ∀ name ∈ holes ps, IsName name := by
  induction read with
  | nil => simp
  | hole proper _ ih => exact List.forall_mem_cons.2 ⟨proper, ih⟩
  | char _ _ ih => exact ih

theorem isName_of_mem_names {v : Value} : ∀ name ∈ names v, IsName name := by
  induction v using Value.parts_induction with
  | str s => exact (reads_pieces s).proper
  | arr items ih =>
    rw [names]
    induction items with
    | nil => simp [namesOfItems]
    | cons v rest others =>
      exact List.forall_mem_append.2 ⟨ih v (by simp), others fun w member => ih w (.tail v member)⟩
  | obj members ih =>
    rw [names]
    induction members with
    | nil => simp [namesOfMembers]
    | cons m rest others =>
      exact List.forall_mem_append.2 ⟨ih m (by simp), others fun n member => ih n (.tail m member)⟩
  | null | bool | int | double | hook | record => simp [names]

theorem root_ne_empty {name : String} (proper : IsName name)
    (noPoint : name.toList.head? ≠ some '.') : root name ≠ "" := by
  intro empty
  have none_taken : name.toList.takeWhile (· != '.') = [] := by
    simpa [root] using congrArg String.toList empty
  cases chars : name.toList with
  | nil => exact proper.1 (String.toList_eq_nil_iff.1 chars)
  | cons c rest =>
    rw [chars] at none_taken noPoint
    have other : c ≠ '.' := fun point => noPoint (by rw [point]; rfl)
    simp [other] at none_taken

end Template

/-- A failure, whatever the context binds. -/
def Failure.unbound : Failure → Failure
  | .definition (.unresolved names _) => .definition (.unresolved names [])
  | f => f

namespace Call

def outcome (call : Call) (context : Fields) : Except Failure Call :=
  (call.substitute (.obj context)).mapError Failure.unbound

theorem outcome_of_filled {call : Call} {c c' : Fields}
    (same : call.filled (.obj c) = call.filled (.obj c')) : call.outcome c = call.outcome c' := by
  unfold outcome substitute
  rw [same]
  cases call.filled (.obj c') with
  | error fault => rfl
  | ok filled =>
    obtain ⟨names, reported⟩ := Template.exists_reports_obj c
    obtain ⟨names', reported'⟩ := Template.exists_reports_obj c'
    by_cases complete : filled.missing = []
    · simp [Template.Filled.complete, complete]
    · simp [Template.Filled.complete_of_missing complete, Template.bound_eq_ok.2 reported,
        Template.bound_eq_ok.2 reported', Except.mapError, Failure.unbound]

end Call

namespace Plan

variable {p : Plan} {c c' : Fields}

theorem outcome_congr (noPoint : ∀ name ∈ p.placeholders, name.toList.head? ≠ some '.')
    (agree : ∀ root ∈ p.roots, Members.get? c root = Members.get? c' root) :
    p.call.outcome c = p.call.outcome c' := by
  apply Call.outcome_of_filled
  apply Template.filled_congr
  intro name member
  have named : name ∈ p.placeholders := List.mem_eraseDups.2 member
  have some_root : Template.root name ≠ "" :=
    Template.root_ne_empty (Template.isName_of_mem_names name member) (noPoint name named)
  have relevant : Template.root name ∈ p.roots := by
    simp only [roots, Template.roots, List.mem_eraseDups, List.mem_filter, List.mem_map]
    exact ⟨⟨name, named, rfl⟩, by simpa using some_root⟩
  exact Template.lookup_congr (agree _ relevant)

/-- Every root of the pool has a candidate. -/
def Offered (members : Fields) : Prop :=
  ∀ root v, Members.get? members root = some v →
    ∃ values, Pool.candidatesIn v = .ok values ∧ values ≠ []

theorem candidates_of_offered {members : Fields} (offered : Offered members) :
    ∃ cands : String → List Value, ∀ root, Members.has members root = true →
      Pool.candidates (.obj members) (.named root) = .ok (cands root) ∧ cands root ≠ [] := by
  refine ⟨fun root => ((Pool.candidates (.obj members) (.named root)).toOption).getD [], ?_⟩
  intro root present
  obtain ⟨v, there⟩ := Option.isSome_iff_exists.1 present
  obtain ⟨values, read, some_each⟩ := offered root v there
  have same : Pool.candidates (.obj members) (.named root) = .ok values := by
    simp [Pool.candidates, there, read]
  simp [same, Except.toOption, some_each]

/-- The outcomes over the relevant roots are those over all roots of the pool, since contexts that
agree on the relevant roots have one outcome. -/
theorem relevant_roots_suffice (p : Plan) (members : Fields)
    (noPoint : ∀ name ∈ p.placeholders, name.toList.head? ≠ some '.') (offered : Offered members)
    (present : ∀ root ∈ p.roots, Members.has members root = true) :
    (∃ narrow wide,
      (Pool.contexts (.obj members) (p.roots.map .named)).result = .ok narrow ∧
      (Noted.lift (Pool.allRoots (.obj members)) >>= Pool.contexts (.obj members)).result =
        .ok wide ∧
      {o | ∃ c ∈ narrow, p.call.outcome c = o} = {o | ∃ c ∈ wide, p.call.outcome c = o}) ∧
    ∀ c c' : Fields, (∀ root ∈ p.roots, Members.get? c root = Members.get? c' root) →
      p.call.outcome c = p.call.outcome c' := by
  obtain ⟨cands, chosen⟩ := candidates_of_offered offered
  have listed : ∀ root ∈ Members.keys members, Members.has members root = true :=
    fun _ => Members.has_iff.2
  have inPool : ∀ root ∈ p.roots, root ∈ Members.keys members := fun root relevant =>
    Members.has_iff.1 (present root relevant)
  have narrow := Pool.contexts_of_offers (fun root relevant => (chosen root (present root relevant)).1)
    fun root relevant => (chosen root (present root relevant)).2
  have wide := Pool.contexts_of_offers (fun root member => (chosen root (listed root member)).1)
    fun root member => (chosen root (listed root member)).2
  refine ⟨⟨_, _, narrow, Noted.bind_eq_ok.2 ⟨_, rfl, wide⟩, ?_⟩, fun c c' => outcome_congr noPoint⟩
  ext o
  constructor
  · rintro ⟨c, member, rfl⟩
    obtain ⟨pick, among, rfl⟩ := (Pool.mem_product_iff (Distinct.nodup_eraseDups _)).1 member
    -- roots that are not relevant take their first candidate
    let extended root := if root ∈ p.roots then pick root else (cands root).headD .null
    refine ⟨Pool.assigned (Members.keys members).eraseDups extended,
      Pool.assigned_mem_product ?_, outcome_congr noPoint ?_⟩
    · intro root inside
      by_cases relevant : root ∈ p.roots
      · simpa [extended, relevant] using among root (List.mem_eraseDups.2 relevant)
      · obtain ⟨first, others, same⟩ := List.exists_cons_of_ne_nil
          (chosen root (listed root (List.mem_eraseDups.1 inside))).2
        simp [extended, relevant, same]
    · intro root relevant
      simp [Pool.get?_assigned, extended, relevant, inPool root relevant, List.mem_eraseDups]
  · rintro ⟨c, member, rfl⟩
    obtain ⟨pick, among, rfl⟩ := (Pool.mem_product_iff (Distinct.nodup_eraseDups _)).1 member
    refine ⟨Pool.assigned p.roots.eraseDups pick, Pool.assigned_mem_product ?_,
      outcome_congr noPoint ?_⟩
    · intro root relevant
      exact among root (List.mem_eraseDups.2 (inPool root (List.mem_eraseDups.1 relevant)))
    · intro root relevant
      simp [Pool.get?_assigned, relevant, inPool root relevant, List.mem_eraseDups]

def partPool : Fields :=
  [("z", .arr [.str "a", .str "b"]), ("x", .arr [.obj [("y", .int 1)], .int 5])]

theorem part_roots_suffice :
    (∀ name ∈ Schedule.partPlan.placeholders, name.toList.head? ≠ some '.') ∧ Offered partPool ∧
    (∀ root ∈ Schedule.partPlan.roots, Members.has partPool root = true) ∧
    {o | ∃ c ∈ [[("x", .obj [("y", .int 1)])], [("x", .int 5)]],
      Schedule.partPlan.call.outcome c = o} =
    {o | ∃ c ∈ [[("z", .str "a"), ("x", .obj [("y", .int 1)])], [("z", .str "a"), ("x", .int 5)],
        [("z", .str "b"), ("x", .obj [("y", .int 1)])], [("z", .str "b"), ("x", .int 5)]],
      Schedule.partPlan.call.outcome c = o} := by
  have asked : Schedule.partPlan.placeholders = ["x.y"] := by decide +kernel
  have roots : Schedule.partPlan.roots = ["x"] := by decide +kernel
  have noPoint : ∀ name ∈ Schedule.partPlan.placeholders, name.toList.head? ≠ some '.' := by
    rw [asked]
    decide
  have offered : Offered partPool := by
    intro root v found
    by_cases z : root = "z"
    · subst z
      cases found
      exact ⟨_, rfl, by simp⟩
    · by_cases x : root = "x"
      · subst x
        cases found
        exact ⟨_, rfl, by simp⟩
      · simp [partPool, Members.get?, Ne.symm z, Ne.symm x] at found
  have present : ∀ root ∈ Schedule.partPlan.roots, Members.has partPool root = true := by
    rw [roots]
    decide
  obtain ⟨⟨narrow, wide, overRelevant, overAll, same⟩, -⟩ :=
    relevant_roots_suffice Schedule.partPlan partPool noPoint offered present
  rw [roots] at overRelevant
  cases overRelevant
  cases overAll
  exact ⟨noPoint, offered, present, same⟩

end Plan

end Harvest
