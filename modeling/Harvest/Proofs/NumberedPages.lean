import Mathlib
import Harvest.Proofs.OffsetPages

namespace Harvest

namespace Pagination

def numberOf (pageArg : String) (firstPage : Int) : Call → Except Failure Int :=
  counterOf pageArg (.int firstPage)

def numbers (firstPage : Int) (k : Nat) : Int :=
  firstPage + k

variable {pageArg : String} {itemsField : Value} {firstPage : Int} {page : Page}
  {items : List Value} {call : Call}

theorem nextByNumber_empty (listed : itemsOf page itemsField = .ok []) :
    nextByNumber (.str pageArg) itemsField (.int firstPage) page call = .ok none := by
  simp [nextByNumber, listed]

theorem nextByNumber_nonempty (free : pageArg ≠ "current")
    (listed : itemsOf page itemsField = .ok items) (nonempty : items ≠ []) {number : Int}
    (numbered : numberOf pageArg firstPage call = .ok number) :
    nextByNumber (.str pageArg) itemsField (.int firstPage) page call =
      .ok (some (call.carrying pageArg (.int (number + 1)))) := by
  obtain ⟨argument, found, read⟩ := bind_eq_ok.1 numbered
  simp [nextByNumber, listed, nonempty, found, read, withArgument_eq_carrying free]

end Pagination

namespace Traversal

open Pagination

variable {σ : Type} {execute : Client σ} {pageArg : String} {itemsField : Value} {firstPage : Int}
  {list : List Value} {size allowed : Nat} {call : Call}

/-- A server that cuts a list into pages of a size and counts them from a first number on, and an
argument for that number. Below the first number it may answer what it wants. -/
structure Numbering (execute : Client σ) (pageArg : String) (itemsField : Value) (firstPage : Int)
    (size : Nat) (list : List Value) : Prop where
  free : pageArg ≠ "current"
  serves : ∀ (call : Call) (w : σ) (k : Nat),
    numberOf pageArg firstPage call = .ok (firstPage + k) →
    ∃ page w', execute call w = (.page page, w') ∧ Holds itemsField page (slice list size k)

def byNumber (pageArg : String) (itemsField : Value) (firstPage : Int) : Continuation :=
  (Strategy.numbered (.str pageArg) itemsField (.int firstPage)).next

theorem Numbering.course (numbering : Numbering execute pageArg itemsField firstPage size list)
    (named : itemsField ≠ .str "") (positive : 1 ≤ size)
    (first : numberOf pageArg firstPage call = .ok firstPage) :
    Course execute (byNumber pageArg itemsField firstPage)
      (counted call pageArg (numbers firstPage))
      (fun k page => Holds itemsField page (slice list size k)) (list.length ⌈/⌉ size) := by
  have begins : counterOf pageArg (.int firstPage) call = .ok (numbers firstPage 0) := by
    rw [numbers, Int.natCast_zero, Int.add_zero]
    exact first
  have rising : StrictMono (numbers firstPage) := fun j k less => by
    unfold numbers
    omega
  have places := counterOf_counted begins
  exact {
    quiet := fun _ _ _ => rfl
    serves := fun k _ w => numbering.serves _ w k (places k)
    goesOn := fun k inside history page holds => by
      have more := (lt_iff_lt_of_le_iff_le (ceilDiv_le_iff_le_mul positive)).1 inside
      have nonempty : slice list size k ≠ [] := by
        rw [← List.length_pos_iff, length_slice]
        omega
      have next := nextByNumber_nonempty numbering.free (itemsOf_of_holds named holds) nonempty
        (places k)
      rw [carrying_counted, numbers, Int.add_assoc] at next
      exact next
    stops := fun history page holds => by
      have none := (ceilDiv_le_iff_le_mul positive).1 (le_refl (list.length ⌈/⌉ size))
      rw [slice, List.drop_eq_nil_of_le none, List.take_nil] at holds
      exact nextByNumber_empty (itemsOf_of_holds named holds)
    apart := fun j k => counted_apart begins rising }

/-- Pagination by number covers the list, with a call for each page of it and one for the empty page
behind them. A call that cannot be written, as its number has too many digits or for what the first
call holds, breaks the traversal before it is made. -/
theorem fetch_numbered_pages (numbering : Numbering execute pageArg itemsField firstPage size list)
    (named : itemsField ≠ .str "") (positive : 1 ≤ size)
    (first : numberOf pageArg firstPage call = .ok firstPage)
    (enough : list.length ⌈/⌉ size < allowed) (client : String) (endpoint : Value) (bound : Fields)
    (w : σ) :
    (call.isWritable = true → (∀ k < list.length ⌈/⌉ size, Short (numbers firstPage (k + 1))) →
      Covers client (.obj bound) itemsField list (counted call pageArg (numbers firstPage))
        (list.length ⌈/⌉ size + 1)
        (fetch client execute endpoint (byNumber pageArg itemsField firstPage) allowed
          (.obj bound, call) w)) ∧
    (call.isWritable = true → ∀ k < list.length ⌈/⌉ size,
      (∀ j < k, Short (numbers firstPage (j + 1))) → ¬ Short (numbers firstPage (k + 1)) →
      Breaks client (counted call pageArg (numbers firstPage)) (k + 1)
        (fetch client execute endpoint (byNumber pageArg itemsField firstPage) allowed
          (.obj bound, call) w)) ∧
    (call.isWritable = false →
      Breaks client (counted call pageArg (numbers firstPage)) 0
        (fetch client execute endpoint (byNumber pageArg itemsField firstPage) allowed
          (.obj bound, call) w)) := by
  have course := numbering.course named positive first
  have whole : list.length ≤ size * (list.length ⌈/⌉ size + 1) :=
    (ceilDiv_le_iff_le_mul positive).1 (Nat.le_succ _)
  obtain ⟨completes, breaks⟩ := fetch_counts course enough client endpoint bound w
  exact ⟨fun written short => (completes written short).covers whole, breaks⟩

def shelf (place : List Value → Page) (firstPage : Int) (size : Nat) (list : List Value) :
    Client Nat := fun call n =>
  match numberOf "page" firstPage call with
  | .ok number => (.page (place (slice list size (number - firstPage).toNat)), n + 1)
  | .error f => (.failed f, n + 1)

theorem shelf_numbers {place : List Value → Page}
    (holds : ∀ items, Holds itemsField (place items) items) (firstPage : Int) (size : Nat)
    (list : List Value) :
    Numbering (shelf place firstPage size list) "page" itemsField firstPage size list where
  free := by decide
  serves call w k number := by
    refine ⟨_, w + 1, by rw [shelf, number], ?_⟩
    rw [add_sub_cancel_left, Int.toNat_natCast]
    exact holds _

theorem numberOf_plainCall (firstPage : Int) :
    numberOf "page" firstPage (plainCall "/a") = .ok firstPage :=
  rfl

theorem numbered_below_zero :
    Numbering (shelf (under "items") (-1) 2 (five.take 3)) "page" (.str "items") (-1) 2
        (five.take 3) ∧
    Covers "main" (.obj []) (.str "items") (five.take 3)
      (counted (plainCall "/a") "page" (numbers (-1))) 3
      (fetch "main" (shelf (under "items") (-1) 2 (five.take 3)) .null
        (byNumber "page" (.str "items") (-1)) 3 (.obj [], plainCall "/a") 0) := by
  have written : (plainCall "/a").isWritable = true := by decide +kernel
  have two : (five.take 3).length ⌈/⌉ 2 = 2 := by decide
  have numbering := shelf_numbers holds_items (-1) 2 (five.take 3)
  obtain ⟨covers, -⟩ := fetch_numbered_pages numbering (by simp) (by decide)
    (numberOf_plainCall _) (two.trans_lt (by decide : 2 < 3)) "main" .null [] 0
  rw [two] at covers
  refine ⟨numbering, covers written fun k below => ?_⟩
  have large : 10 ≤ 10 ^ Text.digitLimit := Nat.le_self_pow (by decide) 10
  unfold Short numbers
  omega

def lastNumber : Int :=
  10 ^ Text.digitLimit - 1

theorem lastNumber_breaks {allowed : Nat} (enough : 1 < allowed) :
    Breaks "main" (counted (plainCall "/a") "page" (numbers lastNumber)) 1
      (fetch "main" (shelf (under "items") lastNumber 1 [.int 1]) .null
        (byNumber "page" (.str "items") lastNumber) allowed (.obj [], plainCall "/a") 0) := by
  have numbering := shelf_numbers holds_items lastNumber 1 [.int 1]
  have course := numbering.course (by simp) le_rfl (numberOf_plainCall _)
  have one : ([.int 1] : List Value).length ⌈/⌉ 1 = 1 := by decide
  have written : (plainCall "/a").isWritable = true := by decide +kernel
  have long : ¬ Short (numbers lastNumber 1) := by simp [Short, numbers, lastNumber]
  rw [one] at course
  exact (fetch_counts course enough "main" .null [] 0).2.1 written 0 Nat.one_pos nofun long

theorem unnamed_left (allowed : Nat) :
    (fetch "main" (shelf (under "") 1 1 [.int 1, .int 2]) .null
      (byNumber "page" (.str "") 1) (allowed + 1) (.obj [], plainCall "/a") 0).ending =
      .done ⟨.obj [], [under "" [.int 1]]⟩ := by
  rw [fetch_opened opening_plainCall rfl]
  rfl

/-- Two things get lost: what is behind the page with the largest number that can be written, and
what is under the empty path. -/
theorem numbered_pages_lost :
    (Numbering (shelf (under "items") lastNumber 1 [.int 1]) "page" (.str "items") lastNumber 1
        [.int 1] ∧
      numberOf "page" lastNumber (plainCall "/a") = .ok lastNumber ∧
      (fetch "main" (shelf (under "items") lastNumber 1 [.int 1]) .null
        (byNumber "page" (.str "items") lastNumber) 2 (.obj [], plainCall "/a") 0).ending =
        .failed .unreadable) ∧
    (Numbering (shelf (under "") 1 1 [.int 1, .int 2]) "page" (.str "") 1 1 [.int 1, .int 2] ∧
      (fetch "main" (shelf (under "") 1 1 [.int 1, .int 2]) .null (byNumber "page" (.str "") 1) 3
        (.obj [], plainCall "/a") 0).ending =
        .done ⟨.obj [], [under "" [.int 1]]⟩) :=
  ⟨⟨shelf_numbers holds_items _ _ _, rfl, (lastNumber_breaks (by decide)).failed⟩,
    shelf_numbers holds_unnamed _ _ _, unnamed_left 2⟩

end Traversal

end Harvest
