import Mathlib
import Harvest.Template

namespace Harvest.Template

def IsName (name : String) : Prop :=
  name ≠ "" ∧ ∀ c ∈ name.toList, isNameChar c = true

def Starts (cs : List Char) : Prop :=
  ∃ name rest, IsName name ∧ cs = (Piece.hole name).source ++ rest

inductive Reads : List Char → List Piece → Prop where
  | nil : Reads [] []
  | hole {name : String} {rest : List Char} {ps : List Piece} (proper : IsName name)
    (later : Reads rest ps) : Reads ((Piece.hole name).source ++ rest) (.hole name :: ps)
  | char {c : Char} {rest : List Char} {ps : List Piece} (plain : ¬ Starts (c :: rest))
    (later : Reads rest ps) : Reads (c :: rest) (.char c :: ps)

variable {name other : String} {cs rest tail : List Char} {ps qs : List Piece}

@[simp] theorem holes_nil : holes [] = [] := rfl

@[simp] theorem holes_hole (name : String) (ps : List Piece) :
    holes (.hole name :: ps) = name :: holes ps := rfl

@[simp] theorem holes_char (c : Char) (ps : List Piece) : holes (.char c :: ps) = holes ps := rfl

theorem source_hole (name : String) (rest : List Char) :
    (Piece.hole name).source ++ rest = '\x7b' :: (name.toList ++ '\x7d' :: rest) := by
  simp [Piece.source]

theorem takeWhile_name {front : List Char} (names : ∀ c ∈ front, isNameChar c = true)
    (stop : ∀ c, rest.head? = some c → isNameChar c = false) :
    (front ++ rest).takeWhile isNameChar = front := by
  rw [List.takeWhile_append_of_pos names]
  cases rest with
  | nil => simp
  | cons c rest => simp [stop c rfl]

theorem brace_stops {c : Char} (h : ('\x7d' :: rest).head? = some c) : isNameChar c = false := by
  obtain rfl : '\x7d' = c := Option.some.inj h
  decide

theorem source_inj (proper : IsName name) (proper' : IsName other)
    (same : (Piece.hole name).source ++ rest = (Piece.hole other).source ++ tail) :
    name = other ∧ rest = tail := by
  rw [source_hole, source_hole] at same
  have inner := (List.cons.inj same).2
  have names : name.toList = other.toList := by
    have taken := congrArg (List.takeWhile isNameChar) inner
    rwa [takeWhile_name proper.2 fun _ => brace_stops, takeWhile_name proper'.2 fun _ => brace_stops]
      at taken
  rw [names] at inner
  have behind := List.append_cancel_left inner
  exact ⟨String.toList_injective names, (List.cons.inj behind).2⟩

theorem Starts.brace {c : Char} (h : Starts (c :: rest)) : c = '\x7b' := by
  obtain ⟨name, behind, -, same⟩ := h
  rw [source_hole] at same
  exact (List.cons.inj same).1

theorem starts_hole (proper : IsName name) (rest : List Char) :
    Starts ((Piece.hole name).source ++ rest) :=
  ⟨name, rest, proper, rfl⟩

theorem Reads.unique (first : Reads cs ps) (second : Reads cs qs) : ps = qs := by
  induction first generalizing qs with
  | nil => cases second with
    | nil => rfl
  | @hole name rest ps proper _ ih =>
    generalize same : (Piece.hole name).source ++ rest = cs at second
    cases second with
    | nil => simp [source_hole] at same
    | hole proper' later' =>
      obtain ⟨rfl, rfl⟩ := source_inj proper proper' same
      rw [ih later']
    | char plain => exact absurd (same ▸ starts_hole proper rest) plain
  | @char c rest ps plain _ ih =>
    generalize same : c :: rest = cs at second
    cases second with
    | nil => cases same
    | hole proper' => exact absurd (same ▸ starts_hole proper' _) plain
    | char _ later' =>
      cases same
      rw [ih later']

theorem reads_chars {front : List Char} (plain : ∀ c ∈ front, c ≠ '\x7b') (later : Reads rest ps) :
    Reads (front ++ rest) (front.map .char ++ ps) := by
  induction front with
  | nil => exact later
  | cons c front ih =>
    have noStart : ¬ Starts (c :: (front ++ rest)) := fun h => plain c (by simp) h.brace
    exact .char noStart (ih fun d member => plain d (.tail c member))

theorem reads_unfinished {pending : List Char} (names : ∀ c ∈ pending, isNameChar c = true)
    (stop : ∀ c, rest.head? = some c → isNameChar c = false)
    (unclosed : pending = [] ∨ rest.head? ≠ some '\x7d') (later : Reads rest ps) :
    Reads ('\x7b' :: (pending.reverse ++ rest)) (unfinished pending ++ ps) := by
  have names' : ∀ c ∈ pending.reverse, isNameChar c = true := fun c member =>
    names c (List.mem_reverse.1 member)
  have noStart : ¬ Starts ('\x7b' :: (pending.reverse ++ rest)) := by
    rintro ⟨name, behind, proper, same⟩
    rw [source_hole] at same
    have inner := (List.cons.inj same).2
    have whole : pending.reverse = name.toList := by
      have taken := congrArg (List.takeWhile isNameChar) inner
      rwa [takeWhile_name names' stop, takeWhile_name proper.2 fun _ => brace_stops] at taken
    rw [whole] at inner
    have closed : rest = '\x7d' :: behind := List.append_cancel_left inner
    rcases unclosed with rfl | other
    · have empty : name.toList = [] := whole.symm
      exact proper.1 (String.toList_eq_nil_iff.1 empty)
    · exact other (by rw [closed]; rfl)
  have plain : ∀ c ∈ pending.reverse, c ≠ '\x7b' := by
    rintro c member rfl
    exact absurd (names' _ member) (by decide)
  exact .char noStart (reads_chars plain later)

theorem reads_cut (cs : List Char) :
    Reads cs (cut none cs) ∧ ∀ pending, (∀ c ∈ pending, isNameChar c = true) →
      Reads ('\x7b' :: (pending.reverse ++ cs)) (cut (some pending) cs) := by
  induction cs with
  | nil =>
    refine ⟨.nil, fun pending names => ?_⟩
    have read : Reads ('\x7b' :: (pending.reverse ++ [])) (unfinished pending ++ []) :=
      reads_unfinished names (by simp) (.inr (by simp)) .nil
    rwa [List.append_nil (unfinished pending)] at read
  | cons c rest ih =>
    obtain ⟨outside, inside⟩ := ih
    have opened : Reads ('\x7b' :: rest) (cut (some []) rest) := inside [] (by simp)
    refine ⟨?_, fun pending names => ?_⟩
    · by_cases brace : c = '\x7b'
      · simpa [cut, brace] using opened
      · simpa [cut, brace] using Reads.char (fun h => brace h.brace) outside
    · by_cases named : isNameChar c = true
      · have more := inside (c :: pending) (by simpa [named] using names)
        simpa [cut, named] using more
      · have stop : ∀ d, (c :: rest).head? = some d → isNameChar d = false := by
          rintro d ⟨⟩
          simpa using named
        by_cases closing : c = '\x7d' ∧ pending ≠ []
        · obtain ⟨rfl, nonempty⟩ := closing
          have proper : IsName (String.ofList pending.reverse) := by
            refine ⟨?_, ?_⟩
            · simpa [String.ofList_eq_empty_iff] using nonempty
            · simpa using names
          have read := Reads.hole proper outside
          simpa [source_hole, cut, named, nonempty] using read
        · have unclosed : pending = [] ∨ (c :: rest).head? ≠ some '\x7d' := by
            simp only [List.head?_cons, ne_eq, Option.some.injEq]
            tauto
          by_cases brace : c = '\x7b'
          · subst brace
            have read := reads_unfinished names stop unclosed opened
            simpa [cut, named] using read
          · have read := reads_unfinished names stop unclosed
              (.char (fun h => brace h.brace) outside)
            simpa [cut, named, closing, brace] using read

theorem reads_pieces (s : String) : Reads s.toList (pieces s) :=
  (reads_cut s.toList).1

theorem pieces_eq_hole_iff {s name : String} :
    pieces s = [.hole name] ↔ IsName name ∧ s.toList = (Piece.hole name).source := by
  have read := reads_pieces s
  constructor
  · intro same
    rw [same] at read
    generalize whole : s.toList = cs at read
    cases read with
    | hole proper later =>
      cases later
      exact ⟨proper, by simp⟩
  · rintro ⟨proper, same⟩
    have lone : Reads s.toList [.hole name] := by
      have built := Reads.hole proper .nil
      rwa [List.append_nil, ← same] at built
    exact read.unique lone

end Harvest.Template
