import Mathlib
import Harvest.Proofs.Batch
import Harvest.Proofs.Extraction
import Harvest.Proofs.Plan
import Harvest.Proofs.Schedule.Job
import Harvest.Proofs.Substitution
import Harvest.Proofs.Traversal
import Harvest.Proofs.Yields

namespace Harvest

namespace Transformation

variable {t : Transformation} {data v : Value} {values : List Value}

theorem select_of_rooted (rooted : Rooted t data v) (selected : Selected t v values) :
    t.select data = .ok values := by
  unfold select
  extract_lets take
  have taken : take v = .ok values := by
    -- `take` is what follows once the value at the root is found
    dsimp only [take]
    cases selected with
    | nothing => rfl
    | all every =>
      rw [every]
      rfl
    | first single =>
      rw [single]
      rfl
    | lone present noList =>
      split
      · exact absurd rfl present
      · exact absurd rfl (noList _)
      · rfl
  cases rooted with
  | whole free =>
    rcases free with unset | empty
    · rw [unset]
      exact taken
    · rw [empty]
      exact taken
  | found root named there =>
    simp only [root, beq_iff_eq, named, if_false, Value.lookupOrNull, there]
    exact taken
  | missing root named nowhere =>
    simp only [root, beq_iff_eq, named, if_false, Value.lookupOrNull, nowhere]
    exact taken

theorem keeps_iff {name : String} : t.keeps name = true ↔ t.Kept name := by
  unfold keeps Kept
  cases t.keep <;> cases t.drop <;> simp

theorem trimmed_spec (t : Transformation) (v : Value) : Trimmed t v (t.trimmed v) := by
  cases v with
  | obj members =>
    have same : members.filter (fun m => t.keeps m.1) = members.filter fun m => t.Kept m.1 := by
      refine List.filter_congr fun m _ => ?_
      rw [Bool.eq_iff_iff, keeps_iff, decide_eq_true_iff]
    rw [trimmed, same]
    exact .object
  | _ => exact .other (by simp)

theorem nested_spec (t : Transformation) (v : Value) : Nested t v (t.nested v) := by
  unfold nested
  split
  next free => exact .bare (.inl free)
  next name given =>
    split
    next empty =>
      rw [beq_iff_eq] at empty
      exact .bare (.inr (empty ▸ given))
    next named => exact .under given (by simpa using named)

end Transformation

namespace Candidate

theorem make_named (v : Value) (typeName : String) (context : Fields) :
    make v (.str typeName) (.obj context) = .ok ⟨v, .str typeName, .obj context⟩ := by
  simp only [make, build, members, Config.Field.required, Config.Field.optional, Members.get?]
  rfl

end Candidate

namespace Extraction

variable {σ : Type} {adjust : Adjuster σ} {request : Request} {typeName : String} {w : σ}

/-- The request has no hook, or one that raises no error. -/
def Calm (adjust : Adjuster σ) (request : Request) : Prop :=
  ∀ hook, request.transformation.value.adjust = some hook →
    ∀ c w f, (adjust hook c w).1 ≠ .error f

def itemUnder? (context : Fields) (c : Candidate) : Option Item :=
  Item.ofCandidate? { c with context := .obj context }

theorem verdict_itemUnder? (context : Fields) (left : Option Candidate) :
    Verdict context left (left.bind (itemUnder? context)) := by
  rcases left with - | ⟨value, typeName, own⟩
  · exact .dropped
  · change Verdict context _ (itemUnder? context _)
    unfold itemUnder? Item.ofCandidate?
    split
    next same =>
      cases same
      exact .item
    next noItem =>
      refine .noItem ?_
      by_contra both
      push Not at both
      obtain ⟨⟨members, value⟩, ⟨name, named⟩⟩ := both
      dsimp only at value named
      subst value named
      exact noItem _ _ _ rfl

theorem adjusted_gives {hook : Hook} (given : request.transformation.value.adjust = some hook)
    (calm : Calm adjust request) (typeName : Value) (c : Candidate) (w : σ) :
    ∃ left w', Adjusts adjust request.transformation.value c w left w' ∧
      Run.Gives (adjusted adjust hook typeName c) w left w' := by
  unfold Run.Gives adjusted
  split
  next f w' answer => exact absurd (congrArg Prod.fst answer) (calm hook given c w f)
  next w' answer => exact ⟨none, w', .dropped given answer, rfl, rfl⟩
  next fields w' answer => exact ⟨_, w', .fields given answer, rfl, rfl⟩
  next new w' answer => exact ⟨some new, w', .replaced given answer, rfl, rfl⟩
  next kindName w' answer => exact ⟨none, w', .other given answer, rfl, rfl⟩

theorem candidateOf_gives (calm : Calm adjust request) (typeName : String) (context : Fields)
    (v : Value) (w : σ) :
    ∃ left w', Judged adjust request typeName context v w (left.bind (itemUnder? context)) w' ∧
      Run.Gives (candidateOf adjust request.transformation.value (.str typeName)
        (.obj request.context) v) w left w' := by
  have made := Candidate.make_named (request.transformation.value.reshape v) typeName
    request.context
  have trims := Transformation.trimmed_spec request.transformation.value v
  have nests := Transformation.nested_spec request.transformation.value
    (request.transformation.value.trimmed v)
  unfold candidateOf
  cases given : request.transformation.value.adjust with
  | none =>
    exact ⟨_, w, .intro trims nests (.untouched given) (verdict_itemUnder? context _),
      .bind (.ofExcept made w) (.done _ w)⟩
  | some hook =>
    obtain ⟨left, w', adjusts, gives⟩ := adjusted_gives given calm (.str typeName)
      ⟨request.transformation.value.reshape v, .str typeName, .obj request.context⟩ w
    exact ⟨left, w', .intro trims nests adjusts (verdict_itemUnder? context left),
      .bind (.ofExcept made w) gives⟩

theorem filterMap_toList_append (context : Fields) (left : Option Candidate)
    (others : List Candidate) {verdicts : List (Option Item)}
    (same : others.filterMap (itemUnder? context) = verdicts.reduceOption) :
    (left.toList ++ others).filterMap (itemUnder? context) =
      (left.bind (itemUnder? context) :: verdicts).reduceOption := by
  rw [List.filterMap_append, same]
  cases left with
  | none => simp
  | some c => cases h : itemUnder? context c <;> simp [h]

theorem candidatesOf_gives (calm : Calm adjust request) (typeName : String) (context : Fields)
    (values : List Value) (w : σ) :
    ∃ candidates verdicts w',
      Judgements adjust request typeName w (values.map (context, ·)) verdicts w' ∧
      candidates.filterMap (itemUnder? context) = verdicts.reduceOption ∧
      Run.Gives (candidatesOf adjust request.transformation.value (.str typeName)
        (.obj request.context) values) w candidates w' := by
  induction values generalizing w with
  | nil => exact ⟨[], [], w, .nil, rfl, .done [] w⟩
  | cons v rest ih =>
    obtain ⟨left, w', judged, first⟩ := candidateOf_gives calm typeName context v w
    obtain ⟨others, verdicts, w'', judgements, same, later⟩ := ih w'
    exact ⟨left.toList ++ others, _, w'', .cons judged judgements,
      filterMap_toList_append context left others same,
      .bind first (.bind later (.done _ w''))⟩

theorem ofPairs_members (members : Fields) :
    Value.ofPairs (members.map fun m => (Value.str m.1, m.2)) = .obj members := by
  have all : Value.members? (members.map fun m => (Value.str m.1, m.2)) = some members := by
    unfold Value.members?
    induction members with
    | nil => rfl
    | cons m rest ih =>
      rw [List.map_cons, List.mapM_cons, ih]
      rfl
  rw [Value.ofPairs, all]

theorem under_obj (context : Fields) (c : Candidate) :
    Fetch.under (.obj context) c = .ok { c with context := .obj context } := by
  simp only [Fetch.under, Value.pairs, bind, Except.bind, ofPairs_members]
  rfl

theorem mapM_under (context : Fields) (candidates : List Candidate) :
    candidates.mapM (Fetch.under (.obj context)) =
      .ok (candidates.map fun c => { c with context := .obj context }) := by
  rw [mapM_eq_ok, List.forall₂_map_right_iff]
  exact List.forall₂_same.2 fun c _ => under_obj context c

theorem validate_gives (origin : Origin) (candidates : List Candidate) (w : σ) :
    Run.Gives (validate origin candidates) w (candidates.filterMap Item.ofCandidate?) w := by
  induction candidates with
  | nil => exact .done [] w
  | cons c rest ih =>
    unfold validate
    cases taken : Item.ofCandidate? c with
    | none =>
      rw [List.filterMap_cons_none taken]
      exact .bind (.emit _ w) ih
    | some item =>
      rw [List.filterMap_cons_some taken]
      exact .bind ih (.done _ w)

theorem page_yields (calm : Calm adjust request) (origin : Origin) (context : Fields) {page : Page}
    (named : origin.typeName = .str typeName)
    (looked : ∃ v, request.transformation.value.Rooted page.data v) (w : σ) :
    ∃ candidates marked w',
      Yields adjust request typeName w [(context, page)]
        (marked.filterMap Item.ofCandidate?) w' ∧
      candidates.mapM (Fetch.under (.obj context)) = .ok marked ∧
      Run.Gives (ofPage adjust request origin.typeName page) w candidates w' := by
  obtain ⟨v, rooted⟩ := looked
  obtain ⟨values, selected⟩ := request.transformation.value.exists_selected v
  obtain ⟨candidates, verdicts, w', judgements, same, gives⟩ :=
    candidatesOf_gives calm typeName context values w
  refine ⟨candidates, _, w', ⟨_, verdicts, .cons rooted selected .nil, ?_, ?_⟩,
    mapM_under context candidates, ?_⟩
  · rwa [List.append_nil]
  · -- what validation leaves of the marked candidates is what the judgements gave
    rw [List.filterMap_map, ← same]
    rfl
  · rw [named]
    have whole := Candidate.make_named page.data typeName request.context
    exact .bind (.ofExcept whole w) (.bind (.ofExcept
      (Transformation.select_of_rooted rooted selected) w) gives)

theorem itemsOf_gives (calm : Calm adjust request) (origin : Origin) (context : Fields)
    (named : origin.typeName = .str typeName) {pages : List Page}
    (looked : ∀ page ∈ pages, ∃ v, request.transformation.value.Rooted page.data v) (w : σ) :
    ∃ items w', Yields adjust request typeName w (pages.map (context, ·)) items w' ∧
      Run.Gives (itemsOf adjust request origin (Fetch.under (.obj context)) pages) w items w' := by
  induction pages generalizing w with
  | nil => exact ⟨[], w, .nil, .done [] w⟩
  | cons page rest ih =>
    obtain ⟨here, later⟩ := List.forall_mem_cons.1 looked
    obtain ⟨candidates, marked, w', yields, marks, first⟩ :=
      page_yields calm origin context named here w
    obtain ⟨others, w'', more, gives⟩ := ih later w'
    exact ⟨_, w'', yields.append more, .bind first (.bind (.ofExcept marks w')
      (.bind (validate_gives origin marked w') (.bind gives (.done _ w''))))⟩

end Extraction

namespace Traversal

variable {σ : Type} {client : String} {execute : Client σ} {endpoint : Value}
  {continuation : Pagination.Continuation} {limit : Nat}

theorem context_of_fetch {first : Value × Call} {w : σ} {fetched : Fetched}
    (ended : (fetch client execute endpoint continuation limit first w).ending = .done fetched) :
    fetched.context = first.1 := by
  cases opened : opening first with
  | error f =>
    rw [ending_of_unopened opened] at ended
    cases ended
  | ok names =>
    rw [fetch_opened opened rfl] at ended
    cases loop : (run client execute endpoint continuation limit (start first.1 first.2) w).ending
    all_goals
      rw [loop] at ended
      cases ended
    rfl

theorem contexts_of_runAll {firsts : List (Value × Call)} {fetched : List Fetched} {w : σ}
    (ended : (Batch.runAll (firsts.map (fetch client execute endpoint continuation limit))
      w).endings = fetched.map .done) :
    List.Forall₂ (fun first f => f.context = first.1) firsts fetched := by
  induction firsts generalizing fetched w with
  | nil =>
    rw [List.map_eq_nil_iff.1 ended.symm]
    exact .nil
  | cons first rest ih =>
    cases fetched with
    | nil => cases ended
    | cons f others =>
      obtain ⟨head, tail⟩ := List.cons.inj ended
      exact .cons (context_of_fetch head) (ih tail)

theorem contexts_of_fetchAll {call : Call} {contexts : List Value} {fetched : List Fetched} {w : σ}
    (ended : (fetchAll client execute endpoint continuation limit call (.arr contexts) w).ending =
      .done fetched) : fetched.map Fetched.context = contexts := by
  cases filled : ((Value.arr contexts).iterated >>= firstCalls call) with
  | error f =>
    rw [fetchAll_faulty filled] at ended
    cases ended
  | ok firsts =>
    rw [fetchAll_filled filled] at ended
    have each := contexts_of_runAll (Batch.endings_of_join ended)
    have asked : List.Forall₂ (fun context first => first.1 = context ∧
        call.substitute context = .ok first.2) contexts firsts := firstCalls_eq_ok.1 filled
    have same := forall₂_through (fun _ _ _ own other => other.trans own.1) asked each
    rw [← List.forall₂_eq_eq_eq, List.forall₂_map_left_iff]
    exact same.flip

end Traversal

namespace Fetch

open Extraction

variable {σ : Type} {definitions : Registry.Definitions} {c : Collaborators σ} {adjust : Adjuster σ}
  {limit : Nat} {p : Plan} {typeName : String} {contexts : List Fields} {w : σ}

/-- What was fetched under a context. -/
structure Visit where
  context : Fields
  pages : List Page

def Visit.fetched (v : Visit) : Traversal.Fetched :=
  ⟨.obj v.context, v.pages⟩

def pagesInOrder (visits : List Visit) : List (Fields × Page) :=
  visits.flatMap fun v => v.pages.map (v.context, ·)

/-- There is something to look at in every page: no index on the way to the root is unreadable. -/
def Looked (request : Request) (fetched : List Traversal.Fetched) : Prop :=
  ∀ f ∈ fetched, ∀ page ∈ f.pages, ∃ v, request.transformation.value.Rooted page.data v

theorem extract_gives (calm : Calm adjust p.request) (visits : List Visit)
    (looked : Looked p.request (visits.map Visit.fetched)) (w : σ) :
    ∃ items w', Yields adjust p.request typeName w (pagesInOrder visits) items w' ∧
      Run.Gives (extract adjust p (.str typeName) (visits.map Visit.fetched)) w items w' := by
  induction visits generalizing w with
  | nil => exact ⟨[], w, .nil, .done [] w⟩
  | cons visit rest ih =>
    obtain ⟨here, later⟩ := List.forall_mem_cons.1 looked
    obtain ⟨items, w', yields, first⟩ :=
      itemsOf_gives calm (origin p (.str typeName)) visit.context rfl here w
    obtain ⟨others, w'', more, gives⟩ := ih later w'
    exact ⟨items ++ others, w'', yields.append more, .bind first (.bind gives (.done _ w''))⟩

theorem finish_gives (calm : Calm adjust p.request) (visits : List Visit)
    (looked : Looked p.request (visits.map Visit.fetched)) (w : σ) :
    ∃ items w', Yields adjust p.request typeName w (pagesInOrder visits) items w' ∧
      Run.Gives (finish adjust p (.str typeName) (visits.map Visit.fetched)) w items w' := by
  obtain ⟨items, w', yields, gives⟩ := extract_gives calm visits looked w
  exact ⟨items, w', yields, .bind gives (.bind (.emit _ w') (.done _ w'))⟩

theorem exists_visits {fetched : List Traversal.Fetched}
    (same : fetched.map Traversal.Fetched.context = contexts.map .obj) :
    ∃ visits : List Visit, visits.map Visit.context = contexts ∧
      visits.map Visit.fetched = fetched := by
  induction fetched generalizing contexts with
  | nil =>
    rw [List.map_eq_nil_iff.1 same.symm]
    exact ⟨[], rfl, rfl⟩
  | cons f rest ih =>
    cases contexts with
    | nil => cases same
    | cons context others =>
      obtain ⟨head, tail⟩ := List.cons.inj same
      obtain ⟨visits, first, second⟩ := ih tail
      refine ⟨⟨context, f.pages⟩ :: visits, by rw [List.map_cons, first], ?_⟩
      rw [List.map_cons, second, Visit.fetched, ← head]

/-- A request whose contexts have all been traversed returns exactly what their pages yield, context
by context and page by page: each value that is seen there gives at most one item, under the context
of its traversal, and none is lost, doubled or moved. -/
theorem request_conserves (definitions : Registry.Definitions) (c : Collaborators σ) (limit : Nat)
    (request : Request) (p : Plan) (contexts : List Fields) (typeName : String) (w : σ)
    (planned : (Plan.make definitions request).result = .ok p) (calm : Calm c.adjust request)
    (fetched : List Traversal.Fetched) (after : σ)
    (traversed : Run.Gives (Traversal.fetchAll p.clientName (c.execute p.clientName)
      (.str p.endpointId) p.pagination.strategy.next limit p.call (.arr (contexts.map .obj)))
      w fetched after)
    (looked : Looked request fetched) :
    ∃ visits : List Visit, visits.map Visit.context = contexts ∧
      visits.map Visit.fetched = fetched ∧
      (∃ items w', Run.Gives (Fetch.request definitions c limit request
        (.arr (contexts.map .obj)) (.str typeName)) w items w') ∧
      ∀ items w', Run.Gives (Fetch.request definitions c limit request
          (.arr (contexts.map .obj)) (.str typeName)) w items w' ↔
        Yields c.adjust request typeName after (pagesInOrder visits) items w' := by
  obtain rfl : p.request = request := (Plan.bound_of_make planned).asked
  obtain ⟨visits, under, rfl⟩ := exists_visits (Traversal.contexts_of_fetchAll traversed.1)
  obtain ⟨items, w', yields, finished⟩ := finish_gives calm visits looked after
  have begins : Run.Gives (Run.ofNoted (Plan.make definitions p.request)) w p w :=
    ⟨Run.ending_ofNoted planned w, rfl⟩
  have gives : Run.Gives (Fetch.request definitions c limit p.request
      (.arr (contexts.map .obj)) (.str typeName)) w items w' :=
    .bind begins (.bind (.emit _ w) (.bind traversed finished))
  refine ⟨visits, under, rfl, ⟨items, w', gives⟩, fun others w'' => ⟨?_, ?_⟩⟩
  · intro given
    obtain ⟨rfl, rfl⟩ := gives.unique given
    exact yields
  · intro other
    obtain ⟨rfl, rfl⟩ := yields.unique other
    exact gives

def rowsRequest : Request :=
  { Schedule.plainPlan.request with
    transformation := ⟨⟨some "rows", false, some ["id", "name"], some ["name"], some "row",
      some ⟨0⟩⟩, .transformation, [], []⟩ }

def rowsPlan : Plan :=
  { Schedule.plainPlan with request := rowsRequest }

def rowsPage : Page :=
  ⟨.obj [("rows", .arr [.obj [("id", .int 1), ("name", .str "a")], .null,
    .obj [("size", .int 9), ("id", .int 3)]])], 200, []⟩

def rowItem (id : Int) : Item :=
  ⟨[("row", .obj [("id", .int id)])], "T", []⟩

/-- Takes the context from the first candidate, drops the second and leaves the others. -/
def thinning : Adjuster Nat :=
  fun _ c n => match n with
    | 0 => (.ok (.fields [("context", .null)]), 1)
    | 1 => (.ok .dropped, 2)
    | n => (.ok (.candidate c), n)

def rowsCollaborators : Collaborators Nat :=
  ⟨fun _ _ n => (.page rowsPage, n), thinning⟩

theorem thinning_calm : Calm thinning rowsRequest := by
  intro hook _ c n f raised
  unfold thinning at raised
  split at raised <;> cases raised

theorem rows_conserved : ∃ visits, visits.map Visit.context = [[]] ∧
    visits.map Visit.fetched = [⟨.obj [], [rowsPage]⟩] ∧
    Run.Gives (Fetch.request Schedule.partDefinitions rowsCollaborators 1 rowsRequest
      (.arr [.obj []]) (.str "T")) 0 [rowItem 1, rowItem 3] 2 ∧
    Yields thinning rowsRequest "T" 0 (pagesInOrder visits) [rowItem 1, rowItem 3] 2 := by
  have planned : (Plan.make Schedule.partDefinitions rowsRequest).result = .ok rowsPlan := by cbv
  have traversed : Run.Gives (Traversal.fetchAll rowsPlan.clientName
      (rowsCollaborators.execute rowsPlan.clientName) (.str rowsPlan.endpointId)
      rowsPlan.pagination.strategy.next 1 rowsPlan.call (.arr ([[]].map .obj))) 0
      [⟨.obj [], [rowsPage]⟩] 0 := by
    constructor <;> cbv
  have looked : Looked rowsRequest [⟨.obj [], [rowsPage]⟩] := by
    intro f member page inside
    rw [List.mem_singleton.1 member, List.mem_singleton] at inside
    subst inside
    exact ⟨_, .found rfl (by decide) rfl⟩
  have gives : Run.Gives (Fetch.request Schedule.partDefinitions rowsCollaborators 1 rowsRequest
      (.arr [.obj []]) (.str "T")) 0 [rowItem 1, rowItem 3] 2 := by
    constructor <;> cbv
  obtain ⟨visits, under, same, -, exactly⟩ := request_conserves Schedule.partDefinitions
    rowsCollaborators 1 rowsRequest rowsPlan [[]] "T" 0 planned thinning_calm _ _ traversed looked
  exact ⟨visits, under, same, gives, (exactly _ _).1 gives⟩

end Fetch

end Harvest
