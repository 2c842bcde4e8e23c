import Mathlib
import Harvest.Extraction

namespace Harvest

namespace Transformation

variable {t : Transformation} {data v : Value} {values : List Value}

inductive Rooted (t : Transformation) (data : Value) : Value → Prop where
  | whole (free : t.root = none ∨ t.root = some "") : Rooted t data data
  | found {path : String} {v : Value} (root : t.root = some path) (named : path ≠ "")
    (there : Value.lookup data path = .ok (some v)) : Rooted t data v
  | missing {path : String} (root : t.root = some path) (named : path ≠ "")
    (nowhere : Value.lookup data path = .ok none) : Rooted t data .null

inductive Selected (t : Transformation) : Value → List Value → Prop where
  | nothing : Selected t .null []
  | all {items : List Value} (every : t.single = false) : Selected t (.arr items) items
  | first {items : List Value} (single : t.single = true) : Selected t (.arr items) (items.take 1)
  | lone {v : Value} (present : v ≠ .null) (noList : ∀ items, v ≠ .arr items) : Selected t v [v]

def Kept (t : Transformation) (name : String) : Prop :=
  (∀ names ∈ t.keep, name ∈ names) ∧ ∀ names ∈ t.drop, name ∉ names

instance (t : Transformation) (name : String) : Decidable (t.Kept name) :=
  inferInstanceAs (Decidable (_ ∧ _))

inductive Trimmed (t : Transformation) : Value → Value → Prop where
  | object {members : Fields} :
    Trimmed t (.obj members) (.obj (members.filter fun m => t.Kept m.1))
  | other {v : Value} (noObject : ∀ members, v ≠ .obj members) : Trimmed t v v

-- an empty name is none here, as an empty root is
inductive Nested (t : Transformation) : Value → Value → Prop where
  | bare {v : Value} (free : t.nestUnder = none ∨ t.nestUnder = some "") : Nested t v v
  | under {v : Value} {name : String} (given : t.nestUnder = some name) (named : name ≠ "") :
    Nested t v (.obj [(name, v)])

theorem Rooted.unique {v' : Value} (first : Rooted t data v) (second : Rooted t data v') :
    v = v' := by
  cases first <;> cases second <;> simp_all

theorem Selected.unique {values' : List Value} (first : Selected t v values)
    (second : Selected t v values') : values = values' := by
  cases first <;> cases second <;> simp_all

theorem Trimmed.unique {kept kept' : Value} (first : Trimmed t v kept)
    (second : Trimmed t v kept') : kept = kept' := by
  cases first <;> cases second <;> simp_all

theorem Nested.unique {shaped shaped' : Value} (first : Nested t v shaped)
    (second : Nested t v shaped') : shaped = shaped' := by
  cases first <;> cases second <;> simp_all

theorem exists_selected (t : Transformation) (v : Value) : ∃ values, Selected t v values := by
  cases v with
  | null => exact ⟨_, .nothing⟩
  | arr items =>
    cases single : t.single with
    | false => exact ⟨_, .all single⟩
    | true => exact ⟨_, .first single⟩
  | _ => exact ⟨_, .lone (by simp) (by simp)⟩

end Transformation

namespace Extraction

variable {σ : Type} {adjust : Adjuster σ} {request : Request} {typeName : String}
  {context : Fields} {v : Value} {values : List Value} {w w' w'' : σ}

inductive Adjusts (adjust : Adjuster σ) (t : Transformation) (c : Candidate) :
    σ → Option Candidate → σ → Prop where
  | untouched {w : σ} (plain : t.adjust = none) : Adjusts adjust t c w (some c) w
  | dropped {hook : Hook} {w w' : σ} (given : t.adjust = some hook)
    (answer : adjust hook c w = (.ok .dropped, w')) : Adjusts adjust t c w none w'
  | other {hook : Hook} {w w' : σ} {kindName : String} (given : t.adjust = some hook)
    (answer : adjust hook c w = (.ok (.other kindName), w')) : Adjusts adjust t c w none w'
  | fields {hook : Hook} {w w' : σ} {fields : Fields} (given : t.adjust = some hook)
    (answer : adjust hook c w = (.ok (.fields fields), w')) :
    Adjusts adjust t c w (some ⟨(Members.get? fields "value").getD c.value,
      (Members.get? fields "type_name").getD c.typeName,
      (Members.get? fields "context").getD c.context⟩) w'
  | replaced {hook : Hook} {w w' : σ} {new : Candidate} (given : t.adjust = some hook)
    (answer : adjust hook c w = (.ok (.candidate new), w')) : Adjusts adjust t c w (some new) w'

/-- What is left is an item under the context of the traversal, whatever context it has got, unless
its value is no object or its type name no text. -/
inductive Verdict (context : Fields) : Option Candidate → Option Item → Prop where
  | dropped : Verdict context none none
  | item {members : Fields} {name : String} {own : Value} :
    Verdict context (some ⟨.obj members, .str name, own⟩) (some ⟨members, name, context⟩)
  | noItem {c : Candidate}
    (bad : (∀ members, c.value ≠ .obj members) ∨ ∀ name, c.typeName ≠ .str name) :
    Verdict context (some c) none

/-- A value that was seen is shaped, adjusted, and taken for an item if it is one. -/
inductive Judged (adjust : Adjuster σ) (request : Request) (typeName : String) (context : Fields)
    (v : Value) : σ → Option Item → σ → Prop where
  | intro {trimmed shaped : Value} {left : Option Candidate} {verdict : Option Item} {w w' : σ}
    (trims : request.transformation.value.Trimmed v trimmed)
    (nests : request.transformation.value.Nested trimmed shaped)
    (adjusts : Adjusts adjust request.transformation.value
      ⟨shaped, .str typeName, .obj request.context⟩ w left w')
    (judges : Verdict context left verdict) : Judged adjust request typeName context v w verdict w'

/-- Values are judged in their order, each one in the world that the one before has left. -/
inductive Judgements (adjust : Adjuster σ) (request : Request) (typeName : String) :
    σ → List (Fields × Value) → List (Option Item) → σ → Prop where
  | nil {w : σ} : Judgements adjust request typeName w [] [] w
  | cons {w w' w'' : σ} {context : Fields} {v : Value} {seen : List (Fields × Value)}
    {verdict : Option Item} {verdicts : List (Option Item)}
    (first : Judged adjust request typeName context v w verdict w')
    (rest : Judgements adjust request typeName w' seen verdicts w'') :
    Judgements adjust request typeName w ((context, v) :: seen) (verdict :: verdicts) w''

/-- The values that are seen in pages, each with the context of its page. -/
inductive Sighted (t : Transformation) : List (Fields × Page) → List (Fields × Value) → Prop where
  | nil : Sighted t [] []
  | cons {context : Fields} {page : Page} {v : Value} {values : List Value}
    {pages : List (Fields × Page)} {seen : List (Fields × Value)}
    (rooted : t.Rooted page.data v) (selected : t.Selected v values)
    (rest : Sighted t pages seen) :
    Sighted t ((context, page) :: pages) (values.map (context, ·) ++ seen)

theorem Judgements.append {seen others : List (Fields × Value)} {verdicts more : List (Option Item)}
    (first : Judgements adjust request typeName w seen verdicts w')
    (rest : Judgements adjust request typeName w' others more w'') :
    Judgements adjust request typeName w (seen ++ others) (verdicts ++ more) w'' := by
  induction first with
  | nil => exact rest
  | cons head _ ih => exact .cons head (ih rest)

theorem Sighted.append {t : Transformation} {pages more : List (Fields × Page)}
    {seen others : List (Fields × Value)} (first : Sighted t pages seen)
    (rest : Sighted t more others) : Sighted t (pages ++ more) (seen ++ others) := by
  induction first with
  | nil => exact rest
  | cons rooted selected _ ih =>
    rw [List.append_assoc]
    exact .cons rooted selected ih

theorem Adjusts.unique {t : Transformation} {c : Candidate} {left left' : Option Candidate}
    {w₁ w₂ : σ} (first : Adjusts adjust t c w left w₁) (second : Adjusts adjust t c w left' w₂) :
    left = left' ∧ w₁ = w₂ := by
  cases first <;> cases second <;> simp_all

theorem Verdict.unique {left : Option Candidate} {verdict verdict' : Option Item}
    (first : Verdict context left verdict) (second : Verdict context left verdict') :
    verdict = verdict' := by
  cases first <;> cases second <;> simp_all

theorem Judged.unique {verdict verdict' : Option Item} {w₁ w₂ : σ}
    (first : Judged adjust request typeName context v w verdict w₁)
    (second : Judged adjust request typeName context v w verdict' w₂) :
    verdict = verdict' ∧ w₁ = w₂ := by
  obtain ⟨trims, nests, adjusts, judges⟩ := first
  obtain ⟨trims', nests', adjusts', judges'⟩ := second
  cases trims.unique trims'
  cases nests.unique nests'
  obtain ⟨rfl, rfl⟩ := adjusts.unique adjusts'
  exact ⟨judges.unique judges', rfl⟩

theorem Judgements.unique {seen : List (Fields × Value)} {verdicts verdicts' : List (Option Item)}
    {w₁ w₂ : σ} (first : Judgements adjust request typeName w seen verdicts w₁)
    (second : Judgements adjust request typeName w seen verdicts' w₂) :
    verdicts = verdicts' ∧ w₁ = w₂ := by
  induction first generalizing verdicts' with
  | nil =>
    cases second
    exact ⟨rfl, rfl⟩
  | cons head _ ih =>
    obtain _ | ⟨head', rest'⟩ := second
    obtain ⟨rfl, rfl⟩ := head.unique head'
    obtain ⟨rfl, same⟩ := ih rest'
    exact ⟨rfl, same⟩

theorem Sighted.unique {t : Transformation} {pages : List (Fields × Page)}
    {seen seen' : List (Fields × Value)} (first : Sighted t pages seen)
    (second : Sighted t pages seen') : seen = seen' := by
  induction first generalizing seen' with
  | nil =>
    cases second
    rfl
  | cons rooted selected _ ih =>
    obtain _ | ⟨rooted', selected', rest'⟩ := second
    cases rooted.unique rooted'
    rw [selected.unique selected', ih rest']

/-- The items that pages yield: those that the judgements on the values seen in them give. -/
def Yields (adjust : Adjuster σ) (request : Request) (typeName : String) (w : σ)
    (pages : List (Fields × Page)) (items : List Item) (w' : σ) : Prop :=
  ∃ seen verdicts, Sighted request.transformation.value pages seen ∧
    Judgements adjust request typeName w seen verdicts w' ∧ items = verdicts.reduceOption

theorem Yields.unique {pages : List (Fields × Page)} {items items' : List Item} {w₁ w₂ : σ}
    (first : Yields adjust request typeName w pages items w₁)
    (second : Yields adjust request typeName w pages items' w₂) : items = items' ∧ w₁ = w₂ := by
  obtain ⟨seen, verdicts, sighted, judged, rfl⟩ := first
  obtain ⟨seen', verdicts', sighted', judged', rfl⟩ := second
  cases sighted.unique sighted'
  obtain ⟨rfl, same⟩ := judged.unique judged'
  exact ⟨rfl, same⟩

theorem Yields.nil : Yields adjust request typeName w [] [] w :=
  ⟨[], [], .nil, .nil, rfl⟩

theorem Yields.append {pages more : List (Fields × Page)} {items others : List Item}
    (first : Yields adjust request typeName w pages items w')
    (rest : Yields adjust request typeName w' more others w'') :
    Yields adjust request typeName w (pages ++ more) (items ++ others) w'' := by
  obtain ⟨seen, verdicts, sighted, judged, rfl⟩ := first
  obtain ⟨seen', verdicts', sighted', judged', rfl⟩ := rest
  exact ⟨_, _, sighted.append sighted', judged.append judged',
    (List.reduceOption_append verdicts verdicts').symm⟩

end Extraction

end Harvest
