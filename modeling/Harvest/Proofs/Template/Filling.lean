import Mathlib
import Harvest.Call
import Harvest.Proofs.Distinct
import Harvest.Proofs.Json.ReadBack
import Harvest.Proofs.Outcomes
import Harvest.Proofs.Substitution
import Harvest.Proofs.Template.Reading
import Harvest.Proofs.Wording

namespace Harvest.Template

def absent (context : Value) (name : String) : Bool :=
  match Value.lookup context name with
  | .ok none => true
  | _ => false

/-- The text with the text of its value in place of each placeholder that has one. Reading goes on
behind what was put in. -/
inductive Expanded (context : Value) : List Char → List Char → Prop where
  | nil : Expanded context [] []
  | found {name : String} {v : Value} {rest out : List Char} (proper : IsName name)
    (there : Value.lookup context name = .ok (some v)) (later : Expanded context rest out) :
    Expanded context ((Piece.hole name).source ++ rest) (v.text.toList ++ out)
  | missing {name : String} {rest out : List Char} (proper : IsName name)
    (nowhere : Value.lookup context name = .ok none) (later : Expanded context rest out) :
    Expanded context ((Piece.hole name).source ++ rest) ((Piece.hole name).source ++ out)
  | char {c : Char} {rest out : List Char} (plain : ¬ Starts (c :: rest))
    (later : Expanded context rest out) : Expanded context (c :: rest) (c :: out)

/-- A string that is a single placeholder becomes the value itself, any other string is expanded.
Lists keep their length and objects their names, and all else stays as it is. -/
inductive Substituted (context : Value) : Value → Value → Prop where
  | raw {s name : String} {v : Value} (proper : IsName name)
    (whole : s.toList = (Piece.hole name).source)
    (there : Value.lookup context name = .ok (some v)) : Substituted context (.str s) v
  | left {s name : String} (proper : IsName name) (whole : s.toList = (Piece.hole name).source)
    (nowhere : Value.lookup context name = .ok none) : Substituted context (.str s) (.str s)
  | text {s : String} {out : List Char}
    (mixed : ∀ name, IsName name → s.toList ≠ (Piece.hole name).source)
    (expanded : Expanded context s.toList out) :
    Substituted context (.str s) (.str (String.ofList out))
  | arr {items results : List Value} (each : List.Forall₂ (Substituted context) items results) :
    Substituted context (.arr items) (.arr results)
  | obj {members results : Fields} (same : Members.keys results = Members.keys members)
    (each : List.Forall₂ (Substituted context) (members.map (·.2)) (results.map (·.2))) :
    Substituted context (.obj members) (.obj results)
  | leaf {v : Value} (noString : ∀ s, v ≠ .str s) (noList : ∀ items, v ≠ .arr items)
    (noObject : ∀ members, v ≠ .obj members) : Substituted context v v

/-- Every look-up of the names gives an answer, be it that there is nothing. -/
def Readable (context : Value) (names : List String) : Prop :=
  ∀ name ∈ names, ∃ found, Value.lookup context name = .ok found

/-- What the context has under the names can be put into a text: no integer in it has more digits
than can be written. -/
def Worded (context : Value) (names : List String) : Prop :=
  ∀ name ∈ names, ∀ v, Value.lookup context name = .ok (some v) → v.isWritable = true

/-- The placeholders of a string whose values are put into a text: all of them, unless the string is
a single one. -/
def insertedInString (s : String) : List String :=
  match pieces s with
  | [.hole _] => []
  | ps => holes ps

mutual

/-- The placeholders in a value's strings that stand inside a longer text. -/
def inserted : Value → List String
  | .str s => insertedInString s
  | .arr items => insertedInItems items
  | .obj members => insertedInMembers members
  | _ => []

def insertedInItems : List Value → List String
  | [] => []
  | v :: rest => inserted v ++ insertedInItems rest

def insertedInMembers : List (String × Value) → List String
  | [] => []
  | (_, v) :: rest => inserted v ++ insertedInMembers rest

end

variable {context v w w' : Value} {cs out out' : List Char} {ps : List Piece} {s : String}
  {items : List Value} {members : Fields}

theorem Readable.append {names others : List String} (h : Readable context (names ++ others)) :
    Readable context names ∧ Readable context others :=
  List.forall_mem_append.1 h

theorem worded_append {names others : List String} :
    Worded context (names ++ others) ↔ Worded context names ∧ Worded context others :=
  List.forall_mem_append

theorem worded_cons {name : String} {others : List String} :
    Worded context (name :: others) ↔
      (∀ v, Value.lookup context name = .ok (some v) → v.isWritable = true) ∧
        Worded context others :=
  List.forall_mem_cons

theorem worded_nil : Worded context [] :=
  nofun

theorem found?_eq_ok {name : String} {found : Option Value} :
    found? context name = .ok found ↔ Value.lookup context name = .ok found := by
  unfold found?
  cases Value.lookup context name <;> simp [Except.mapError]

theorem absent_iff {name : String} :
    absent context name = true ↔ Value.lookup context name = .ok none := by
  unfold absent
  split <;> simp_all

theorem absent_of_found {name : String} (there : Value.lookup context name = .ok (some v)) :
    absent context name = false := by
  simp [absent, there]

theorem Expanded.unique (first : Expanded context cs out) (second : Expanded context cs out') :
    out = out' := by
  induction first generalizing out' with
  | nil => cases second with
    | nil => rfl
  | @found name v rest out proper there _ ih =>
    generalize same : (Piece.hole name).source ++ rest = cs at second
    cases second with
    | nil => simp [source_hole] at same
    | found proper' there' later' =>
      obtain ⟨rfl, rfl⟩ := source_inj proper proper' same
      obtain rfl := Option.some.inj (Except.ok.inj (there.symm.trans there'))
      rw [ih later']
    | missing proper' nowhere' =>
      obtain ⟨rfl, rfl⟩ := source_inj proper proper' same
      cases there.symm.trans nowhere'
    | char plain => exact absurd (same ▸ starts_hole proper rest) plain
  | @missing name rest out proper nowhere _ ih =>
    generalize same : (Piece.hole name).source ++ rest = cs at second
    cases second with
    | nil => simp [source_hole] at same
    | found proper' there' =>
      obtain ⟨rfl, rfl⟩ := source_inj proper proper' same
      cases nowhere.symm.trans there'
    | missing proper' _ later' =>
      obtain ⟨rfl, rfl⟩ := source_inj proper proper' same
      rw [ih later']
    | char plain => exact absurd (same ▸ starts_hole proper rest) plain
  | @char c rest out plain _ ih =>
    generalize same : c :: rest = cs at second
    cases second with
    | nil => cases same
    | found proper' => exact absurd (same ▸ starts_hole proper' _) plain
    | missing proper' => exact absurd (same ▸ starts_hole proper' _) plain
    | char _ later' =>
      cases same
      rw [ih later']

theorem name_unique {name other : String} (proper : IsName name) (proper' : IsName other)
    (whole : s.toList = (Piece.hole name).source) (whole' : s.toList = (Piece.hole other).source) :
    name = other := by
  have same := whole.symm.trans whole'
  rw [← List.append_nil (Piece.hole name).source, ← List.append_nil (Piece.hole other).source]
    at same
  exact (source_inj proper proper' same).1

theorem forall₂_unique {α β : Type} {R : α → β → Prop} {as : List α} {bs bs' : List β}
    (each : ∀ a ∈ as, ∀ b b', R a b → R a b' → b = b') (first : List.Forall₂ R as bs)
    (second : List.Forall₂ R as bs') : bs = bs' := by
  induction first generalizing bs' with
  | nil =>
    cases second
    rfl
  | cons head _ ih =>
    cases second with
    | cons head' tail' =>
      rw [each _ (by simp) _ _ head head', ih (fun a member => each a (.tail _ member)) tail']

theorem members_ext {first second : Fields} (names : Members.keys first = Members.keys second)
    (values : first.map (·.2) = second.map (·.2)) : first = second := by
  rw [← List.zip_unzip first, ← List.zip_unzip second, List.unzip_eq_map, List.unzip_eq_map]
  exact congrArg₂ List.zip names values

theorem Substituted.unique_str (first : Substituted context (.str s) w)
    (second : Substituted context (.str s) w') : w = w' := by
  cases first with
  | raw proper whole there =>
    cases second with
    | raw proper' whole' there' =>
      obtain rfl := name_unique proper proper' whole whole'
      exact Option.some.inj (Except.ok.inj (there.symm.trans there'))
    | left proper' whole' nowhere' =>
      obtain rfl := name_unique proper proper' whole whole'
      cases there.symm.trans nowhere'
    | text mixed => exact absurd whole (mixed _ proper)
    | leaf noString => exact absurd rfl (noString s)
  | left proper whole nowhere =>
    cases second with
    | raw proper' whole' there' =>
      obtain rfl := name_unique proper proper' whole whole'
      cases nowhere.symm.trans there'
    | left => rfl
    | text mixed => exact absurd whole (mixed _ proper)
    | leaf noString => exact absurd rfl (noString s)
  | text mixed expanded =>
    cases second with
    | raw proper whole => exact absurd whole (mixed _ proper)
    | left proper whole => exact absurd whole (mixed _ proper)
    | text _ expanded' => rw [expanded.unique expanded']
    | leaf noString => exact absurd rfl (noString s)
  | leaf noString => exact absurd rfl (noString s)

theorem Substituted.unique (first : Substituted context v w) (second : Substituted context v w') :
    w = w' := by
  induction v using Value.parts_induction generalizing w w' with
  | str s => exact first.unique_str second
  | arr items ih =>
    cases first with
    | arr each =>
      cases second with
      | arr each' => rw [forall₂_unique (fun v member _ _ => ih v member) each each']
      | leaf _ noList => exact absurd rfl (noList items)
    | leaf _ noList => exact absurd rfl (noList items)
  | obj members ih =>
    have ih' : ∀ v ∈ members.map (·.2), ∀ {w w'}, Substituted context v w →
        Substituted context v w' → w = w' := List.forall_mem_map.2 ih
    cases first with
    | obj same each =>
      cases second with
      | obj same' each' =>
        have values := forall₂_unique (fun v member _ _ => ih' v member) each each'
        rw [members_ext (same.trans same'.symm) values]
      | leaf _ _ noObject => exact absurd rfl (noObject members)
    | leaf _ _ noObject => exact absurd rfl (noObject members)
  | null | bool | int | double | hook | record =>
    cases first
    cases second
    rfl

theorem fillPieces_expands (read : Reads cs ps) (readable : Readable context (holes ps))
    (worded : Worded context (holes ps)) :
    ∃ out, fillPieces context ps = .ok ⟨out, (holes ps).filter (absent context)⟩ ∧
      Expanded context cs out := by
  induction read with
  | nil => exact ⟨[], rfl, .nil⟩
  | @hole name rest ps proper _ ih =>
    obtain ⟨here, behind⟩ := worded_cons.1 worded
    obtain ⟨out, filled, expanded⟩ := ih (fun name member => readable name (.tail _ member)) behind
    obtain ⟨found, answer⟩ := readable name (by simp)
    cases found with
    | some v =>
      refine ⟨v.text.toList ++ out, ?_, .found proper answer expanded⟩
      have present := absent_of_found answer
      have text := Value.asText_of_isWritable (here v answer)
      simp [fillPieces, found?_eq_ok.2 answer, text, filled, present]
    | none =>
      refine ⟨(Piece.hole name).source ++ out, ?_, .missing proper answer expanded⟩
      have missing := absent_iff.2 answer
      simp [fillPieces, found?_eq_ok.2 answer, filled, missing]
  | @char c rest ps plain _ ih =>
    obtain ⟨out, filled, expanded⟩ := ih readable worded
    refine ⟨c :: out, ?_, .char plain expanded⟩
    simp [fillPieces, filled]

theorem fillPieces_of_not_worded (readable : Readable context (holes ps))
    (wordless : ¬ Worded context (holes ps)) : fillPieces context ps = .error .unreadable := by
  induction ps with
  | nil => exact absurd worded_nil wordless
  | cons p rest ih =>
    cases p with
    | char c =>
      rw [fillPieces, ih readable wordless]
      rfl
    | hole name =>
      obtain ⟨found, answer⟩ := readable name (by simp)
      have later := ih fun name member => readable name (.tail _ member)
      have other : ¬ Worded context (holes (.hole name :: rest)) := wordless
      rw [holes_hole, worded_cons, not_and_or] at other
      cases found with
      | none =>
        have behind := later (other.resolve_left (by simp [answer]))
        simp [fillPieces, found?_eq_ok.2 answer, behind]
      | some v =>
        cases written : v.isWritable with
        | false => simp [fillPieces, found?_eq_ok.2 answer, Value.asText_of_not_isWritable written]
        | true =>
          have behind := later (other.resolve_left (by simp [answer, written]))
          simp [fillPieces, found?_eq_ok.2 answer, Value.asText_of_isWritable written, behind]

/-- What comes of filling: the value with the names that are absent, unless a value that is put into
a text has none. -/
def Fills (context v : Value) : Prop :=
  Readable context (names v) →
    (Worded context (inserted v) → ∃ w, fill context v =
      .ok ⟨w, (names v).filter (absent context)⟩ ∧ Substituted context v w) ∧
    (¬ Worded context (inserted v) → fill context v = .error .unreadable)

theorem fillString_fills (context : Value) (s : String) : Fills context (.str s) := by
  intro readable
  rw [names] at readable ⊢
  rw [inserted, insertedInString, fill, fillString]
  split
  next name lone =>
    obtain ⟨proper, whole⟩ := pieces_eq_hole_iff.1 lone
    rw [lone] at readable ⊢
    refine ⟨fun _ => ?_, fun wordless => absurd worded_nil wordless⟩
    obtain ⟨found, answer⟩ := readable name (by simp)
    cases found with
    | some v =>
      have present := absent_of_found answer
      exact ⟨v, by simp [found?_eq_ok.2 answer, present], .raw proper whole answer⟩
    | none =>
      have missing := absent_iff.2 answer
      exact ⟨.str s, by simp [found?_eq_ok.2 answer, missing], .left proper whole answer⟩
  next others =>
    refine ⟨fun worded => ?_, fun wordless => ?_⟩
    · obtain ⟨out, filled, expanded⟩ := fillPieces_expands (reads_pieces s) readable worded
      have mixed : ∀ name, IsName name → s.toList ≠ (Piece.hole name).source :=
        fun name proper whole => others name (pieces_eq_hole_iff.2 ⟨proper, whole⟩)
      exact ⟨.str (String.ofList out), by simp [filled], .text mixed expanded⟩
    · simp [fillPieces_of_not_worded readable wordless]

theorem fillItems_fills (each : ∀ v ∈ items, Fills context v)
    (readable : Readable context (namesOfItems items)) :
    (Worded context (insertedInItems items) → ∃ results, fillItems context items =
        .ok ⟨results, (namesOfItems items).filter (absent context)⟩ ∧
      List.Forall₂ (Substituted context) items results) ∧
    (¬ Worded context (insertedInItems items) →
      fillItems context items = .error .unreadable) := by
  induction items with
  | nil => exact ⟨fun _ => ⟨[], rfl, .nil⟩, fun wordless => absurd worded_nil wordless⟩
  | cons v rest ih =>
    obtain ⟨here, behind⟩ := Readable.append readable
    obtain ⟨first, firstFails⟩ := each v (by simp) here
    obtain ⟨others, othersFail⟩ := ih (fun u member => each u (.tail _ member)) behind
    rw [insertedInItems, worded_append]
    refine ⟨fun ⟨inFirst, inOthers⟩ => ?_, fun wordless => ?_⟩
    · obtain ⟨w, first, substituted⟩ := first inFirst
      obtain ⟨results, others, all⟩ := others inOthers
      exact ⟨w :: results, by simp [fillItems, first, others, namesOfItems], .cons substituted all⟩
    · refine bind_eq_error_of_not_and (fun h => (first h).imp' _ fun _ => And.left) firstFails
        (fun _ inOthers => ?_) wordless
      rw [othersFail inOthers, error_bind]

theorem fillMembers_fills (each : ∀ m ∈ members, Fills context m.2)
    (readable : Readable context (namesOfMembers members)) :
    (Worded context (insertedInMembers members) → ∃ results, fillMembers context members =
        .ok ⟨results, (namesOfMembers members).filter (absent context)⟩ ∧
      Members.keys results = Members.keys members ∧
      List.Forall₂ (Substituted context) (members.map (·.2)) (results.map (·.2))) ∧
    (¬ Worded context (insertedInMembers members) →
      fillMembers context members = .error .unreadable) := by
  induction members with
  | nil => exact ⟨fun _ => ⟨[], rfl, rfl, .nil⟩, fun wordless => absurd worded_nil wordless⟩
  | cons m rest ih =>
    obtain ⟨name, v⟩ := m
    obtain ⟨here, behind⟩ := Readable.append readable
    obtain ⟨first, firstFails⟩ := each (name, v) (by simp) here
    obtain ⟨others, othersFail⟩ := ih (fun m member => each m (.tail _ member)) behind
    rw [insertedInMembers, worded_append]
    refine ⟨fun ⟨inFirst, inOthers⟩ => ?_, fun wordless => ?_⟩
    · obtain ⟨w, first, substituted⟩ := first inFirst
      obtain ⟨results, others, same, all⟩ := others inOthers
      exact ⟨(name, w) :: results, by simp [fillMembers, first, others, namesOfMembers],
        congrArg (name :: ·) same, .cons substituted all⟩
    · refine bind_eq_error_of_not_and (fun h => (first h).imp' _ fun _ => And.left) firstFails
        (fun _ inOthers => ?_) wordless
      rw [othersFail inOthers, error_bind]

theorem fill_fills (context v : Value) : Fills context v := by
  induction v using Value.parts_induction with
  | str s => exact fillString_fills context s
  | arr items ih =>
    intro readable
    obtain ⟨done, fails⟩ := fillItems_fills ih readable
    refine ⟨fun worded => ?_, fun wordless => by simp [fill, fails wordless]⟩
    obtain ⟨results, filled, each⟩ := done worded
    exact ⟨.arr results, by simp [fill, names, filled], .arr each⟩
  | obj members ih =>
    intro readable
    obtain ⟨done, fails⟩ := fillMembers_fills ih readable
    refine ⟨fun worded => ?_, fun wordless => by simp [fill, fails wordless]⟩
    obtain ⟨results, filled, same, each⟩ := done worded
    exact ⟨.obj results, by simp [fill, names, filled], .obj same each⟩
  | null | bool | int | double | hook | record =>
    exact fun _ => ⟨fun _ => ⟨_, rfl, .leaf (by simp) (by simp) (by simp)⟩,
      fun wordless => absurd worded_nil wordless⟩

theorem readable_names (readable : Readable context (placeholders v)) :
    Readable context (names v) :=
  fun name member => readable name (List.mem_eraseDups.2 member)

theorem replace_of_not_worded (readable : Readable context (placeholders v))
    (wordless : ¬ Worded context (inserted v)) (strict : Bool) :
    replace context strict v = .error .unreadable := by
  rw [replace, (fill_fills context v (readable_names readable)).2 wordless]
  rfl

section

variable (readable : Readable context (placeholders v)) (worded : Worded context (inserted v))

include readable worded

theorem exists_substituted :
    ∃ w, replace context false v = .ok w ∧ Substituted context v w := by
  obtain ⟨w, filled, substituted⟩ := (fill_fills context v (readable_names readable)).1 worded
  exact ⟨w, by simp [replace, filled], substituted⟩

theorem replace_eq_ok (w : Value) :
    replace context false v = .ok w ↔ Substituted context v w := by
  obtain ⟨u, lenient, substituted⟩ := exists_substituted readable worded
  rw [lenient]
  constructor
  · rintro ⟨⟩
    exact substituted
  · intro other
    rw [substituted.unique other]

theorem complete_fills
    (found : ¬ ∃ name ∈ placeholders v, Value.lookup context name = .ok none) :
    replace context true v = replace context false v := by
  obtain ⟨w, filled, -⟩ := (fill_fills context v (readable_names readable)).1 worded
  have none_missing : (names v).filter (absent context) = [] := by
    rw [List.filter_eq_nil_iff]
    intro name member gone
    exact found ⟨name, List.mem_eraseDups.2 member, absent_iff.1 gone⟩
  simp [replace, filled, none_missing, Filled.complete]

end

theorem incomplete_fails (readable : Readable context (placeholders v))
    (worded : Worded context (inserted v))
    (gone : ∃ name ∈ placeholders v, Value.lookup context name = .ok none) :
    replace context true v = bound context >>= fun bound =>
      .error (.definition (.unresolved ((placeholders v).filter (absent context)) bound)) := by
  obtain ⟨w, filled, -⟩ := (fill_fills context v (readable_names readable)).1 worded
  obtain ⟨name, member, nowhere⟩ := gone
  have missing : name ∈ (names v).filter (absent context) :=
    List.mem_filter.2 ⟨List.mem_eraseDups.1 member, absent_iff.2 nowhere⟩
  have some_missing : (names v).filter (absent context) ≠ [] := List.ne_nil_of_mem missing
  rw [placeholders, ← Distinct.eraseDups_filter, replace, filled, ok_bind, if_pos rfl]
  exact Filled.complete_of_missing some_missing

/-- Discovery and filling agree. If all look-ups give an answer and what is put into a text can be
written, a strict filling fails exactly if a discovered name has no value, and reports those in the
order of discovery; else, and always if it is not strict, it gives the one result that substitution
describes. If something that is put into a text cannot be written, every filling fails. What is
missing is reported together with what the context binds, so not under a context whose items have no
order or cannot be written, but always under an object. -/
theorem replace_outcome (context v : Value) (readable : Readable context (placeholders v)) :
    (¬ Worded context (inserted v) → ∀ strict, replace context strict v = .error .unreadable) ∧
    (Worded context (inserted v) →
      (∀ missing, (∃ bound, replace context true v =
          .error (.definition (.unresolved missing bound))) ↔
        (∃ name ∈ placeholders v, Value.lookup context name = .ok none) ∧
          missing = (placeholders v).filter (absent context) ∧
          ∃ bound, Reports context bound) ∧
      ((∃ name ∈ placeholders v, Value.lookup context name = .ok none) →
        (context.sorted? = none → replace context true v = .error .misfit) ∧
        ∀ bound, context.sorted? = some bound → (Value.arr bound).isWritable = false →
          replace context true v = .error .unreadable) ∧
      (∀ w, replace context true v = .ok w ↔
        (¬ ∃ name ∈ placeholders v, Value.lookup context name = .ok none) ∧
          Substituted context v w) ∧
      (∀ w, replace context false v = .ok w ↔ Substituted context v w) ∧
      ∃ w, Substituted context v w) ∧
    ∀ members, context = .obj members → ∃ bound, Reports context bound := by
  refine ⟨replace_of_not_worded readable, fun worded => ?_, ?_⟩
  · obtain ⟨w, lenient, substituted⟩ := exists_substituted readable worded
    have result := replace_eq_ok readable worded
    by_cases gone : ∃ name ∈ placeholders v, Value.lookup context name = .ok none
    · have failing := incomplete_fails readable worded gone
      refine ⟨fun missing => ?_, fun _ => ⟨fun unsorted => ?_, fun names sorted unwritten => ?_⟩,
        fun w' => ?_, result, w, substituted⟩
      · simp only [failing, ← bound_eq_ok]
        cases reported : bound context with
        | ok names =>
          constructor
          · rintro ⟨_, ⟨⟩⟩
            exact ⟨gone, rfl, names, rfl⟩
          · rintro ⟨-, rfl, -⟩
            exact ⟨names, rfl⟩
        | error f =>
          have other : ∀ d, f ≠ .definition d := fun d same =>
            bound_ne_definition (same ▸ reported)
          simp [other]
      · rw [failing, bound_of_unsorted unsorted, error_bind]
      · rw [failing, bound_of_unwritten sorted unwritten, error_bind]
      · rw [failing]
        cases bound context <;> simp [gone]
    · have strict := complete_fills readable worded gone
      refine ⟨fun missing => ?_, fun h => absurd h gone, fun w' => ?_, result, w, substituted⟩
      · rw [strict, lenient]
        constructor
        · rintro ⟨bound, ⟨⟩⟩
        · exact fun h => absurd h.1 gone
      · rw [strict, result w']
        exact ⟨fun h => ⟨gone, h⟩, And.right⟩
  · rintro members rfl
    exact exists_reports_obj members

def bracedContext : Value :=
  .obj [("a", .str "\x7bb\x7d"), ("b", .int 2), ("n", .null), ("l", .arr [.int 1])]

def braced : Value :=
  .obj [("x", .str "\x7b\x7ba\x7d\x7d-\x7bl.0\x7d"),
    ("y", .arr [.str "\x7bn\x7d", .str "\x7bn\x7d \x7bgone\x7d", .int 7]),
    ("z", .str "\x7bgone\x7d\x7bl.1\x7d")]

def bracedFilled : Value :=
  .obj [("x", .str "\x7b\x7bb\x7d\x7d-1"),
    ("y", .arr [.null, .str "None \x7bgone\x7d", .int 7]),
    ("z", .str "\x7bgone\x7d\x7bl.1\x7d")]

theorem braced_outcome : Readable bracedContext (placeholders braced) ∧
    Worded bracedContext (inserted braced) ∧
    (∃ bound, replace bracedContext true braced =
      .error (.definition (.unresolved ["gone", "l.1"] bound))) ∧
    Substituted bracedContext braced bracedFilled := by
  have found : placeholders braced = ["a", "l.0", "n", "gone", "l.1"] := by
    decide +kernel
  have readable : Readable bracedContext (placeholders braced) := by
    rw [found]
    simp only [Readable, List.forall_mem_cons]
    exact ⟨⟨_, by cbv⟩, ⟨_, by cbv⟩, ⟨_, by cbv⟩, ⟨_, by cbv⟩, ⟨_, by cbv⟩, by simp⟩
  have lenient : replace bracedContext false braced = .ok bracedFilled := by rfl
  -- otherwise nothing could be filled
  have worded : Worded bracedContext (inserted braced) := by
    by_contra wordless
    cases lenient.symm.trans (replace_of_not_worded readable wordless false)
  have gone : Value.lookup bracedContext "gone" = .ok none := by cbv
  have missing : ["gone", "l.1"] = (placeholders braced).filter (absent bracedContext) := by
    decide +kernel
  obtain ⟨-, whole, sortable⟩ := replace_outcome bracedContext braced readable
  obtain ⟨failing, -, -, result, -⟩ := whole worded
  exact ⟨readable, worded,
    (failing _).2 ⟨⟨"gone", by simp [found], gone⟩, missing, sortable _ rfl⟩, (result _).1 lenient⟩

/-- All look-ups give an answer, and yet nothing comes of it: the number has too many digits to be
put behind the letter. Under a list whose items have no order, what is missing is not reported. -/
theorem unwritten_not_inserted :
    (placeholders (.str "x\x7ba\x7d") = ["a"] ∧
      Value.lookup (.obj [("a", Value.unwritten)]) "a" = .ok (some Value.unwritten) ∧
      ∀ strict, replace (.obj [("a", Value.unwritten)]) strict (.str "x\x7ba\x7d") =
        .error .unreadable) ∧
    placeholders (.str "\x7b5\x7d") = ["5"] ∧
    Value.lookup (.arr [.int 1, .str "x"]) "5" = .ok none ∧
    replace (.arr [.int 1, .str "x"]) true (.str "\x7b5\x7d") = .error .misfit := by
  refine ⟨?_, ?_⟩
  · have asked : placeholders (.str "x\x7ba\x7d") = ["a"] := by decide +kernel
    have parts : Value.splitPath "a" = ["a"] := by decide +kernel
    have there : Value.lookup (.obj [("a", Value.unwritten)]) "a" = .ok (some Value.unwritten) := by
      simp [Value.lookup, parts, Value.follow, Value.child, Members.get?]
    have put : inserted (.str "x\x7ba\x7d") = ["a"] := by decide +kernel
    have readable : Readable (.obj [("a", Value.unwritten)]) (placeholders (.str "x\x7ba\x7d")) := by
      rw [asked]
      exact List.forall_mem_singleton.2 ⟨_, there⟩
    have wordless : ¬ Worded (.obj [("a", Value.unwritten)]) (inserted (.str "x\x7ba\x7d")) := by
      intro worded
      rw [put] at worded
      have written := worded "a" (List.mem_singleton_self _) _ there
      rw [Value.isWritable_unwritten] at written
      cases written
    exact ⟨asked, there, replace_of_not_worded readable wordless⟩
  · have asked : placeholders (.str "\x7b5\x7d") = ["5"] := by decide +kernel
    have put : inserted (.str "\x7b5\x7d") = [] := by decide +kernel
    have nowhere : Value.lookup (.arr [.int 1, .str "x"]) "5" = .ok none := by cbv
    have readable : Readable (.arr [.int 1, .str "x"]) (placeholders (.str "\x7b5\x7d")) := by
      rw [asked]
      exact List.forall_mem_singleton.2 ⟨_, nowhere⟩
    have worded : Worded (.arr [.int 1, .str "x"]) (inserted (.str "\x7b5\x7d")) := by
      rw [put]
      exact worded_nil
    have gone : ∃ name ∈ placeholders (.str "\x7b5\x7d"),
        Value.lookup (.arr [.int 1, .str "x"]) name = .ok none := by
      rw [asked]
      exact ⟨"5", List.mem_singleton_self _, nowhere⟩
    refine ⟨asked, nowhere, ?_⟩
    rw [incomplete_fails readable worded gone, bound_of_unsorted (by decide), error_bind]

end Harvest.Template
