import Mathlib
import Harvest.Proofs.Conservation
import Harvest.Proofs.Lookup

namespace Harvest

/-- The path leads to a list and goes on with digits that are no index: there are others than
decimal ones among them, or too many. -/
def Value.Misleads (data : Value) (path : String) : Prop :=
  ∃ front part rest items, splitPath path = front ++ part :: rest ∧
    follow data front = .ok (some (.arr items)) ∧ isIndexText part = true ∧
    (part.toList.all Text.isDecimal = false ∨ Text.digitLimit < part.toList.length)

theorem Value.misleads_iff {data : Value} {path : String} :
    data.Misleads path ↔ ∃ fault, lookup data path = .error fault := by
  constructor
  · rintro ⟨front, part, rest, items, split, found, index, unread⟩
    refine ⟨.unreadableIndex part, lookup_eq_error_iff.2 ⟨front, part, rest, items, split, found,
      index, ?_⟩⟩
    exact (index?_eq_error_iff index).2 ⟨rfl, unread⟩
  · rintro ⟨fault, failed⟩
    obtain ⟨front, part, rest, items, split, found, index, stuck⟩ := lookup_eq_error_iff.1 failed
    exact ⟨front, part, rest, items, split, found, index, ((index?_eq_error_iff index).1 stuck).2⟩

namespace Transformation

variable {t : Transformation} {data v : Value}

/-- The root of the transformation misleads in these data. -/
def Misled (t : Transformation) (data : Value) : Prop :=
  ∃ path, t.root = some path ∧ path ≠ "" ∧ data.Misleads path

theorem select_of_misled (misled : t.Misled data) : t.select data = .error .unreadable := by
  obtain ⟨path, root, named, misleads⟩ := misled
  obtain ⟨fault, failed⟩ := Value.misleads_iff.1 misleads
  simp only [select, root, beq_iff_eq, named, if_false, Value.lookupOrNull, failed, Except.map]
  rfl

theorem Rooted.not_misled (rooted : t.Rooted data v) : ¬ t.Misled data := by
  intro misled
  obtain ⟨values, selected⟩ := t.exists_selected v
  have failed := select_of_misled misled
  rw [select_of_rooted rooted selected] at failed
  cases failed

theorem misled_or_rooted (t : Transformation) (data : Value) :
    t.Misled data ∨ ∃ v, t.Rooted data v := by
  cases root : t.root with
  | none => exact .inr ⟨data, .whole (.inl root)⟩
  | some path =>
    by_cases named : path = ""
    · exact .inr ⟨data, .whole (.inr (named ▸ root))⟩
    · cases looked : Value.lookup data path with
      | error fault => exact .inl ⟨path, root, named, Value.misleads_iff.2 ⟨fault, looked⟩⟩
      | ok found =>
        cases found with
        | none => exact .inr ⟨.null, .missing root named looked⟩
        | some v => exact .inr ⟨v, .found root named looked⟩

end Transformation

namespace Extraction

variable {σ : Type} {adjust : Adjuster σ} {request : Request} {origin : Origin} {typeName : String}
  {page : Page} {pages : List Page} {w : σ} {o : Outcome σ (List Item)}

def candidate (request : Request) (typeName : String) (v : Value) : Candidate :=
  ⟨request.transformation.value.reshape v, .str typeName, .obj request.context⟩

theorem judgements_plain (plain : request.transformation.value.adjust = none)
    (values : List Value) :
    Judgements adjust request typeName w (values.map (request.context, ·))
      (values.map fun v => Item.ofCandidate? (candidate request typeName v)) w := by
  induction values with
  | nil => exact .nil
  | cons v rest ih =>
    have trims := request.transformation.value.trimmed_spec v
    have nests := request.transformation.value.nested_spec (request.transformation.value.trimmed v)
    exact .cons (.intro trims nests (.untouched plain)
      (verdict_itemUnder? request.context (some (candidate request typeName v)))) ih

theorem candidatesOf_plain (plain : request.transformation.value.adjust = none)
    (values : List Value) :
    candidatesOf adjust request.transformation.value (.str typeName) (.obj request.context) values =
      (Run.done (values.map (candidate request typeName)) : Run σ (List Candidate)) := by
  induction values with
  | nil => rfl
  | cons v rest ih =>
    rw [candidatesOf, ih, candidateOf, Candidate.make_named, plain]
    rfl

theorem ofPage_plain (plain : request.transformation.value.adjust = none) {values : List Value}
    (selected : request.transformation.value.select page.data = .ok values) :
    ofPage adjust request (.str typeName) page =
      (Run.done (values.map (candidate request typeName)) : Run σ (List Candidate)) := by
  rw [ofPage, Candidate.make_named]
  change transform adjust _ ⟨page.data, .str typeName, .obj request.context⟩ = _
  rw [transform, selected]
  exact candidatesOf_plain plain values

theorem ofPage_of_misled (misled : request.transformation.value.Misled page.data) :
    ofPage adjust request (.str typeName) page =
      (Run.fail .unreadable : Run σ (List Candidate)) := by
  rw [ofPage, Candidate.make_named]
  change transform adjust _ ⟨page.data, .str typeName, .obj request.context⟩ = _
  rw [transform, Transformation.select_of_misled misled]
  rfl

def dropped (origin : Origin) (verdicts : List (Option Item)) : List Event :=
  List.replicate (verdicts.countP Option.isNone) origin.invalid

theorem dropped_append (origin : Origin) (verdicts others : List (Option Item)) :
    dropped origin (verdicts ++ others) = dropped origin verdicts ++ dropped origin others := by
  rw [dropped, List.countP_append, List.replicate_add]
  rfl

@[simp] theorem dropped_none (origin : Origin) (verdicts : List (Option Item)) :
    dropped origin (none :: verdicts) = origin.invalid :: dropped origin verdicts := by
  rw [dropped, List.countP_cons_of_pos rfl, List.replicate_succ]
  rfl

@[simp] theorem dropped_some (origin : Origin) (item : Item) (verdicts : List (Option Item)) :
    dropped origin (some item :: verdicts) = dropped origin verdicts := by
  rw [dropped, List.countP_cons_of_neg (by simp)]
  rfl

theorem validate_eq (origin : Origin) (candidates : List Candidate) (w : σ) :
    validate origin candidates w =
      ⟨w, dropped origin (candidates.map Item.ofCandidate?),
        .done (candidates.map Item.ofCandidate?).reduceOption⟩ := by
  induction candidates with
  | nil => rfl
  | cons c rest ih =>
    unfold validate
    cases taken : Item.ofCandidate? c with
    | none =>
      change (Run.emit [origin.invalid] >>= fun _ => validate origin rest) w = _
      rw [Run.bind_of_done _ rfl]
      simp only [Run.emit, ih, List.map_cons, taken, dropped_none, List.reduceOption_cons_of_none,
        List.singleton_append]
    | some item =>
      change (validate origin rest >>= fun items => Run.done (item :: items)) w = _
      rw [Run.bind_done]
      simp only [ih, List.map_cons, taken, dropped_some, List.reduceOption_cons_of_some, Ending.map]

theorem itemsOf_cons_misled (named : origin.typeName = .str typeName)
    (misled : request.transformation.value.Misled page.data) (rest : List Page) (w : σ) :
    itemsOf adjust request origin .ok (page :: rest) w = ⟨w, [], .failed .unreadable⟩ := by
  rw [itemsOf, named, ofPage_of_misled misled]
  rfl

theorem itemsOf_cons_plain (plain : request.transformation.value.adjust = none)
    (named : origin.typeName = .str typeName) {values : List Value}
    (selected : request.transformation.value.select page.data = .ok values) (rest : List Page)
    (w : σ) :
    ∃ verdicts, Judgements adjust request typeName w (values.map (request.context, ·)) verdicts w ∧
      itemsOf adjust request origin .ok (page :: rest) w =
        ⟨(itemsOf adjust request origin .ok rest w).world,
          dropped origin verdicts ++ (itemsOf adjust request origin .ok rest w).events,
          (itemsOf adjust request origin .ok rest w).ending.map (verdicts.reduceOption ++ ·)⟩ := by
  refine ⟨_, judgements_plain plain values, ?_⟩
  have marked : (values.map (candidate request typeName)).mapM Except.ok =
      (Except.ok (values.map (candidate request typeName)) : Except Failure _) :=
    mapM_eq_ok.2 (List.forall₂_same.2 fun _ _ => rfl)
  rw [itemsOf, named, ofPage_plain plain selected]
  change (Run.ofExcept ((values.map (candidate request typeName)).mapM Except.ok) >>= _) w = _
  rw [marked]
  change (validate origin (values.map (candidate request typeName)) >>= fun first =>
    itemsOf adjust request origin .ok rest >>= fun others => Run.done (first ++ others)) w = _
  rw [Run.bind_of_done _ (by rw [validate_eq]), validate_eq, Run.bind_done, List.map_map]
  rfl

theorem Sighted.not_misled {t : Transformation} {pages : List (Fields × Page)}
    {seen : List (Fields × Value)} (sighted : Sighted t pages seen) :
    ∀ p ∈ pages, ¬ t.Misled p.2.data := by
  induction sighted with
  | nil => nofun
  | cons rooted _ _ ih => exact List.forall_mem_cons.2 ⟨rooted.not_misled, ih⟩

/-- How extraction ends: with the items of all pages, or with a failure at the first page that
misleads. A value that gives no item is noticed, and the world stays as it was. -/
inductive Extracted (adjust : Adjuster σ) (request : Request) (origin : Origin) (typeName : String)
    (w : σ) (pages : List Page) (o : Outcome σ (List Item)) : Prop
  | all {seen : List (Fields × Value)} {verdicts : List (Option Item)}
    (sighted : Sighted request.transformation.value (pages.map (request.context, ·)) seen)
    (judged : Judgements adjust request typeName w seen verdicts w)
    (outcome : o = ⟨w, dropped origin verdicts, .done verdicts.reduceOption⟩)
  | misled {before rest : List Page} {page : Page} {seen : List (Fields × Value)}
    {verdicts : List (Option Item)} (pages : pages = before ++ page :: rest)
    (misled : request.transformation.value.Misled page.data)
    (sighted : Sighted request.transformation.value (before.map (request.context, ·)) seen)
    (judged : Judgements adjust request typeName w seen verdicts w)
    (outcome : o = ⟨w, dropped origin verdicts, .failed .unreadable⟩)

theorem itemsOf_extracted (plain : request.transformation.value.adjust = none)
    (named : origin.typeName = .str typeName) (pages : List Page) (w : σ) :
    Extracted adjust request origin typeName w pages
      (itemsOf adjust request origin .ok pages w) := by
  induction pages with
  | nil => exact .all .nil .nil rfl
  | cons page rest ih =>
    rcases request.transformation.value.misled_or_rooted page.data with misled | ⟨v, rooted⟩
    · have first : page :: rest = [] ++ page :: rest := rfl
      exact .misled first misled .nil .nil (itemsOf_cons_misled named misled rest w)
    · obtain ⟨values, selected⟩ := request.transformation.value.exists_selected v
      obtain ⟨verdicts, judged, outcome⟩ := itemsOf_cons_plain plain named
        (Transformation.select_of_rooted rooted selected) rest w
      cases ih with
      | all sighted judgements later =>
        refine .all (.cons rooted selected sighted) (judged.append judgements) ?_
        rw [outcome, later, dropped_append, List.reduceOption_append]
        rfl
      | @misled before behind last _ _ split misled sighted judgements later =>
        have longer : page :: rest = (page :: before) ++ last :: behind := by
          rw [split, List.cons_append]
        refine .misled longer misled (.cons rooted selected sighted) (judged.append judgements) ?_
        rw [outcome, later, dropped_append]
        rfl

/-- Without an adjustment, extraction gives the items of all pages with a notice for each value that
is no record, whatever data are in the pages, unless the root misleads in one of them. Then it
fails. -/
theorem itemsOf_outcome (plain : request.transformation.value.adjust = none)
    (named : origin.typeName = .str typeName) (pages : List Page) (w : σ) :
    Extracted adjust request origin typeName w pages
      (itemsOf adjust request origin .ok pages w) ∧
    ((∃ items, (itemsOf adjust request origin .ok pages w).ending = .done items) ↔
      ∀ page ∈ pages, ¬ request.transformation.value.Misled page.data) := by
  have extracted : Extracted adjust request origin typeName w pages
      (itemsOf adjust request origin .ok pages w) := itemsOf_extracted plain named pages w
  refine ⟨extracted, ?_⟩
  cases extracted with
  | all sighted _ outcome =>
    refine ⟨fun _ page member => ?_, fun _ => ⟨_, by rw [outcome]⟩⟩
    exact sighted.not_misled _ (List.mem_map_of_mem member)
  | misled split misled _ _ outcome =>
    constructor
    · rintro ⟨items, ending⟩
      rw [outcome] at ending
      cases ending
    · intro fitting
      exact absurd misled (fitting _ (by simp [split]))

def rootRequest (root : String) : Request :=
  { Schedule.plainPlan.request with
    transformation := ⟨⟨some root, false, none, none, none, none⟩, .transformation, [], []⟩ }

def rootOrigin : Origin :=
  ⟨.str "main", "/a", .get, .str "T"⟩

def noAdjuster : Adjuster Unit :=
  fun _ _ w => (.ok .dropped, w)

def unevenPages : List Page :=
  [⟨.arr [.obj [("rows", .arr [.obj [("id", .int 1)], .int 5, .null])]], 200, []⟩,
    ⟨.arr [], 200, []⟩, ⟨.int 7, 200, []⟩]

theorem uneven_pages_extracted :
    (rootRequest "0.rows").transformation.value.adjust = none ∧
    rootOrigin.typeName = .str "T" ∧
    Extracted noAdjuster (rootRequest "0.rows") rootOrigin "T" () unevenPages
      (itemsOf noAdjuster (rootRequest "0.rows") rootOrigin .ok unevenPages ()) ∧
    ∃ items, (itemsOf noAdjuster (rootRequest "0.rows") rootOrigin .ok unevenPages ()).ending =
      .done items := by
  have fitting : ∀ page ∈ unevenPages,
      ¬ (rootRequest "0.rows").transformation.value.Misled page.data := by
    refine List.forall_mem_cons.2 ⟨?_, List.forall_mem_cons.2 ⟨?_, List.forall_mem_singleton.2 ?_⟩⟩
    · exact Transformation.Rooted.not_misled (.found rfl (by decide) (by cbv))
    · exact Transformation.Rooted.not_misled (.missing rfl (by decide) (by cbv))
    · exact Transformation.Rooted.not_misled (.missing rfl (by decide) (by cbv))
  have plain : (rootRequest "0.rows").transformation.value.adjust = none := rfl
  have named : rootOrigin.typeName = .str "T" := rfl
  exact ⟨plain, named, (itemsOf_outcome plain named unevenPages ()).1,
    (itemsOf_outcome plain named unevenPages ()).2.2 fitting⟩

/-- A raised digit is no index, so the root fails on a list. -/
theorem raised_digit_fails :
    (rootRequest "²").transformation.value.adjust = none ∧ rootOrigin.typeName = .str "T" ∧
    itemsOf noAdjuster (rootRequest "²") rootOrigin .ok [⟨.arr [.int 1], 200, []⟩] () =
      ⟨(), [], .failed .unreadable⟩ := by
  have split : Value.splitPath "²" = [] ++ "²" :: [] := by decide +kernel
  have misleads : (Value.arr [.int 1]).Misleads "²" :=
    ⟨[], "²", [], [.int 1], split, rfl, by decide +kernel, .inl (by decide +kernel)⟩
  exact ⟨rfl, rfl, itemsOf_cons_misled rfl ⟨"²", rfl, by decide, misleads⟩ [] ()⟩

end Extraction

end Harvest
