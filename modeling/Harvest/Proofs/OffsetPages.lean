import Mathlib
import Harvest.Proofs.Course

namespace Harvest

namespace Pagination

/-- The page has these items as its body, or at a path in it. -/
def Holds (itemsField : Value) (page : Page) (items : List Value) : Prop :=
  match itemsField with
  | .null => page.data = .arr items
  | .str path => Value.lookup page.data path = .ok (some (.arr items))
  | _ => False

/-- What is on the page with a number if a list is cut into pages of a size. -/
def slice (list : List Value) (size k : Nat) : List Value :=
  (list.drop (size * k)).take size

def offsetOf (offsetArg : String) : Call → Except Failure Int :=
  counterOf offsetArg (.int 0)

def limitOf (limitArg : String) (pageSize : Value) : Call → Except Failure Int :=
  counterOf limitArg pageSize

variable {offsetArg limitArg : String} {itemsField pageSize : Value} {page : Page}
  {items list : List Value} {call : Call}

/-- The page has these items where the strategy looks for them. -/
def Lists (itemsField : Value) (page : Page) (items : List Value) : Prop :=
  if itemsField.isBlank then page.data = .arr items
  else ∃ path, itemsField = .str path ∧ Value.lookup page.data path = .ok (some (.arr items))

theorem itemsOf_of_lists (lists : Lists itemsField page items) :
    itemsOf page itemsField = .ok items := by
  unfold Lists at lists
  unfold itemsOf
  split at lists
  next blank =>
    rw [if_pos blank, lists]
    rfl
  next given =>
    obtain ⟨path, rfl, found⟩ := lists
    rw [if_neg given, valueAt_of_lookup found]
    rfl

theorem itemsOf_of_holds (named : itemsField ≠ .str "") (holds : Holds itemsField page items) :
    itemsOf page itemsField = .ok items := by
  apply itemsOf_of_lists
  cases itemsField with
  | null => exact holds
  | str path =>
    have given : (Value.str path).isBlank = false := by simpa [Value.isBlank] using named
    rw [Lists, given, if_neg Bool.false_ne_true]
    exact ⟨path, rfl, holds⟩
  | _ => exact holds.elim

theorem length_slice (size k : Nat) :
    (slice list size k).length = min size (list.length - size * k) := by
  rw [slice, List.length_take, List.length_drop]

theorem flatten_slices (list : List Value) (size n : Nat) :
    ((List.range n).map (slice list size)).flatten = list.take (size * n) := by
  induction n with
  | zero => simp
  | succ n ih =>
    rw [List.range_succ, List.map_append, List.flatten_append, ih, Nat.mul_succ, List.take_add]
    simp [slice]

theorem nextByOffset_short {size : Nat} (listed : itemsOf page itemsField = .ok items)
    (limit : limitOf limitArg pageSize call = .ok (size : Int)) (short : items.length < size) :
    nextByOffset (.str offsetArg) (.str limitArg) itemsField pageSize page call = .ok none := by
  obtain ⟨argument, found, read⟩ := bind_eq_ok.1 limit
  simp only [nextByOffset, listed, found, read, bind, Except.bind]
  rw [if_pos (by simp [short])]
  rfl

theorem nextByOffset_full {start size : Nat} (free : offsetArg ≠ "current")
    (listed : itemsOf page itemsField = .ok items)
    (limit : limitOf limitArg pageSize call = .ok (size : Int)) (full : items.length = size)
    (positive : 1 ≤ size) (offset : offsetOf offsetArg call = .ok (start : Int)) :
    nextByOffset (.str offsetArg) (.str limitArg) itemsField pageSize page call =
      .ok (some (call.carrying offsetArg (.int (start + size : Nat)))) := by
  obtain ⟨limitValue, limitFound, limitRead⟩ := bind_eq_ok.1 limit
  obtain ⟨offsetValue, offsetFound, offsetRead⟩ := bind_eq_ok.1 offset
  have nonempty : items.isEmpty = false := by
    rw [List.isEmpty_eq_false_iff, ← List.length_pos_iff]
    omega
  simp only [nextByOffset, listed, limitFound, limitRead, offsetFound, offsetRead, bind,
    Except.bind, nonempty, full]
  rw [if_neg (by simp)]
  simp only [withArgument_eq_carrying free, ← Int.natCast_add]
  rfl

end Pagination

namespace Traversal

open Pagination

variable {σ : Type} {client : String} {execute : Client σ} {context itemsField : Value}
  {items : List Value} {size last : Nat} {callAt : Nat → Call} {o : Outcome σ Fetched}

/-- The traversal has made these calls, and come to its end with these items on its pages, without a
warning of a loop. -/
structure Covers (client : String) (context itemsField : Value) (items : List Value)
    (callAt : Nat → Call) (count : Nat) (o : Outcome σ Fetched) : Prop where
  calls : callsIn o.events = (List.range count).map fun k => (client, callAt k)
  returned : ∃ pages parts, o.ending = .done ⟨context, pages⟩ ∧ pages.length = count ∧
    List.Forall₂ (Holds itemsField) pages parts ∧ parts.flatten = items
  unwarned : o.events.countP Event.isLoopDetected = 0

theorem Completes.covers (completes : Completes client callAt
      (fun k page => Holds itemsField page (slice items size k)) last context o)
    (whole : items.length ≤ size * (last + 1)) :
    Covers client context itemsField items callAt (last + 1) o := by
  obtain ⟨pages, ending, length, fits⟩ := completes.returned
  refine ⟨completes.calls, ⟨pages, (List.range (last + 1)).map (slice items size), ending, length,
    ?_, ?_⟩, completes.unwarned⟩
  · rw [List.forall₂_iff_get]
    refine ⟨by simp [length], fun k inside _ => ?_⟩
    have holds := fits k _ (List.getElem?_eq_getElem inside)
    simpa using holds
  · rw [flatten_slices, List.take_of_length_le whole]

variable {offsetArg limitArg : String} {pageSize : Value} {list : List Value} {skipped : Nat}
  {call : Call}

/-- A server that answers with slices of a list, and arguments in which they can be asked for.
Beside the list the server may hold, count and return what it wants. -/
structure Slicing (execute : Client σ) (offsetArg limitArg : String) (itemsField pageSize : Value)
    (list : List Value) : Prop where
  differ : offsetArg ≠ limitArg
  free : offsetArg ≠ "current"
  serves : ∀ (call : Call) (w : σ) (skipped size : Nat),
    offsetOf offsetArg call = .ok (skipped : Int) →
    limitOf limitArg pageSize call = .ok (size : Int) →
    ∃ page w', execute call w = (.page page, w') ∧
      Holds itemsField page ((list.drop skipped).take size)

def slices (offsetArg limitArg : String) (itemsField pageSize : Value) : Continuation :=
  (Strategy.offset (.str offsetArg) (.str limitArg) itemsField pageSize).next

def offsets (skipped size k : Nat) : Int :=
  (skipped + size * k : Nat)

theorem Slicing.course (slicing : Slicing execute offsetArg limitArg itemsField pageSize list)
    (named : itemsField ≠ .str "") (positive : 1 ≤ size)
    (offset : offsetOf offsetArg call = .ok (skipped : Int)) (within : skipped ≤ list.length)
    (limit : limitOf limitArg pageSize call = .ok (size : Int)) :
    Course execute (slices offsetArg limitArg itemsField pageSize)
      (counted call offsetArg (offsets skipped size))
      (fun k page => Holds itemsField page (slice (list.drop skipped) size k))
      ((list.length - skipped) / size) := by
  have first : counterOf offsetArg (.int 0) call = .ok (offsets skipped size 0) := offset
  have rising : StrictMono (offsets skipped size) :=
    strictMono_nat_of_lt_succ fun k => by
      have more : size * (k + 1) = size * k + size := Nat.mul_succ size k
      unfold offsets
      omega
  have places := counterOf_counted first
  have limits : ∀ k, limitOf limitArg pageSize (counted call offsetArg (offsets skipped size) k) =
      .ok (size : Int) := by
    intro k
    cases k with
    | zero => exact limit
    | succ k => exact (counterOf_carrying_of_ne slicing.differ.symm _).trans limit
  have remaining : ∀ k, (slice (list.drop skipped) size k).length =
      min size (list.length - skipped - size * k) := by
    intro k
    rw [length_slice, List.length_drop]
  exact {
    quiet := fun _ _ _ => rfl
    serves := fun k _ w => by
      obtain ⟨page, w', answered, holds⟩ := slicing.serves _ w _ _ (places k) (limits k)
      rw [← List.drop_drop] at holds
      exact ⟨page, w', answered, holds⟩
    goesOn := fun k inside history page holds => by
      have further : (k + 1) * size ≤ list.length - skipped :=
        (Nat.le_div_iff_mul_le positive).1 inside
      rw [Nat.succ_mul, Nat.mul_comm] at further
      have full : (slice (list.drop skipped) size k).length = size := by
        rw [remaining]
        omega
      have next := nextByOffset_full slicing.free (itemsOf_of_holds named holds) (limits k) full
        positive (places k)
      rw [carrying_counted, Nat.add_assoc, ← Nat.mul_succ] at next
      exact next
    stops := fun history page holds => by
      have beyond := Nat.lt_mul_div_succ (list.length - skipped) positive
      have short : (slice (list.drop skipped) size ((list.length - skipped) / size)).length <
          size := by
        rw [remaining, Nat.mul_add, Nat.mul_one] at *
        omega
      exact nextByOffset_short (itemsOf_of_holds named holds) (limits _) short
    apart := fun j k => counted_apart first rising }

/-- Pagination by offset covers a list from where it starts, with as many calls as there are slices
and one more if the last of them is full. A call that cannot be written, as its offset has too many
digits or for what the first call holds, breaks the traversal before it is made. -/
theorem fetch_offset_slices (slicing : Slicing execute offsetArg limitArg itemsField pageSize list)
    (named : itemsField ≠ .str "") (positive : 1 ≤ size)
    (offset : offsetOf offsetArg call = .ok (skipped : Int)) (within : skipped ≤ list.length)
    (limit : limitOf limitArg pageSize call = .ok (size : Int)) {allowed : Nat}
    (enough : (list.length - skipped) / size < allowed) (client : String) (endpoint : Value)
    (bound : Fields) (w : σ) :
    (call.isWritable = true →
      (∀ k < (list.length - skipped) / size, Short (offsets skipped size (k + 1))) →
      Covers client (.obj bound) itemsField (list.drop skipped)
        (counted call offsetArg (offsets skipped size)) ((list.length - skipped) / size + 1)
        (fetch client execute endpoint (slices offsetArg limitArg itemsField pageSize) allowed
          (.obj bound, call) w)) ∧
    (call.isWritable = true → ∀ k < (list.length - skipped) / size,
      (∀ j < k, Short (offsets skipped size (j + 1))) → ¬ Short (offsets skipped size (k + 1)) →
      Breaks client (counted call offsetArg (offsets skipped size)) (k + 1)
        (fetch client execute endpoint (slices offsetArg limitArg itemsField pageSize) allowed
          (.obj bound, call) w)) ∧
    (call.isWritable = false →
      Breaks client (counted call offsetArg (offsets skipped size)) 0
        (fetch client execute endpoint (slices offsetArg limitArg itemsField pageSize) allowed
          (.obj bound, call) w)) := by
  have course := slicing.course named positive offset within limit
  have whole : (list.drop skipped).length ≤ size * ((list.length - skipped) / size + 1) := by
    rw [List.length_drop]
    exact (Nat.lt_mul_div_succ _ positive).le
  obtain ⟨completes, breaks⟩ := fetch_counts course enough client endpoint bound w
  exact ⟨fun written short => (completes written short).covers whole, breaks⟩

def under (name : String) (items : List Value) : Page :=
  ⟨.obj [(name, .arr items)], 200, []⟩

theorem holds_under {name : String} (whole : Value.splitPath name = [name]) (items : List Value) :
    Holds (.str name) (under name items) items := by
  simp [Holds, under, Value.lookup, whole, Value.follow, Value.child, Members.get?]

theorem holds_items : ∀ items, Holds (.str "items") (under "items" items) items :=
  holds_under (by decide +kernel)

theorem holds_unnamed : ∀ items, Holds (.str "") (under "" items) items :=
  holds_under (by decide +kernel)

def slicer (place : List Value → Page) (pageSize : Int) (list : List Value) : Client Nat :=
  fun call n =>
    match offsetOf "offset" call, limitOf "limit" (.int pageSize) call with
    | .ok skipped, .ok size => (.page (place ((list.drop skipped.toNat).take size.toNat)), n + 1)
    | _, _ => (.failed .unreadable, n + 1)

theorem slicer_slices {place : List Value → Page}
    (holds : ∀ items, Holds itemsField (place items) items) (pageSize : Int) (list : List Value) :
    Slicing (slicer place pageSize list) "offset" "limit" itemsField (.int pageSize) list where
  differ := by decide
  free := by decide
  serves call w skipped size offset limit := by
    refine ⟨_, w + 1, by rw [slicer, offset, limit], ?_⟩
    rw [Int.toNat_natCast, Int.toNat_natCast]
    exact holds _

theorem short_of_lt {n : Nat} (small : n < 10) : Short n := by
  have large : 10 ≤ 10 ^ Text.digitLimit := Nat.le_self_pow (by decide) 10
  unfold Short
  omega

def five : List Value :=
  [.int 1, .int 2, .int 3, .int 4, .int 5]

def pairsFromSecond : Call :=
  ⟨"/items", .get, [("limit", .str "2"), ("offset", .str "1")], [], .null⟩

theorem pairs_cover :
    Slicing (slicer (under "items") 100 five) "offset" "limit" (.str "items") (.int 100) five ∧
    Covers "main" (.obj []) (.str "items") [.int 2, .int 3, .int 4, .int 5]
      (counted pairsFromSecond "offset" (offsets 1 2)) 3
      (fetch "main" (slicer (under "items") 100 five) .null
        (slices "offset" "limit" (.str "items") (.int 100)) 3 (.obj [], pairsFromSecond) 0) := by
  have slicing := slicer_slices holds_items 100 five
  have offset : offsetOf "offset" pairsFromSecond = .ok ((1 : Nat) : Int) := by cbv
  have limit : limitOf "limit" (.int 100) pairsFromSecond = .ok ((2 : Nat) : Int) := by cbv
  have written : pairsFromSecond.isWritable = true := by decide +kernel
  have enough : (five.length - 1) / 2 < 3 := by decide
  obtain ⟨covers, -⟩ := fetch_offset_slices slicing (by simp) (by decide) offset (by decide) limit
    enough "main" .null [] 0
  refine ⟨slicing, covers written fun k below => short_of_lt ?_⟩
  have two : (five.length - 1) / 2 = 2 := rfl
  omega

def longLimit : Call :=
  ⟨"/items", .get, [("limit", Value.unwritten)], [], .null⟩

theorem isWritable_longLimit : longLimit.isWritable = false := by
  have limit : Value.unwritten.full = Value.unwritten := rfl
  simp [longLimit, Call.isWritable, Call.data, Call.members, Value.full, Value.fullMembers,
    Value.isWritable, Value.areWritableMembers, limit, Value.isWritable_unwritten]

/-- Two things get lost: what is under the empty path, which counts as none, so that the page itself
is taken for the items and is no list; and all that is asked for with a limit of too many digits. -/
theorem offset_pages_lost :
    (Slicing (slicer (under "") 1 five) "offset" "limit" (.str "") (.int 1) five ∧
      (fetch "main" (slicer (under "") 1 five) .null (slices "offset" "limit" (.str "") (.int 1)) 9
        (.obj [], plainCall "/items") 0).ending =
        .done ⟨.obj [], [under "" [.int 1]]⟩) ∧
    (Slicing (slicer (under "items") 100 five) "offset" "limit" (.str "items") (.int 100) five ∧
      limitOf "limit" (.int 100) longLimit = .ok (10 ^ Text.digitLimit) ∧
      (fetch "main" (slicer (under "items") 100 five) .null
        (slices "offset" "limit" (.str "items") (.int 100)) 9 (.obj [], longLimit) 0).ending =
        .failed .unreadable) := by
  have unnamed := slicer_slices holds_unnamed 1 five
  have named := slicer_slices holds_items 100 five
  have opened : opening (.obj [], plainCall "/items") = .ok [] := by cbv
  have limit : limitOf "limit" (.int 100) longLimit = .ok (10 ^ Text.digitLimit) := rfl
  have fault : opening (.obj [], longLimit) = .error .unreadable := by
    simp [opening, isWritable_longLimit]
  refine ⟨⟨unnamed, ?_⟩, named, limit, ending_of_unopened fault 0⟩
  rw [fetch_opened opened rfl]
  rfl

end Traversal

end Harvest
