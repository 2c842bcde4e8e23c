import Harvest.Link
import Harvest.Proofs.Outcomes

namespace Harvest.Link

def cleaned (text : String) : List Char :=
  (text.toList.dropWhile isLeading).filter (! isIgnored ·)

def host (text : String) : List Char :=
  (splitHost (dropScheme (cleaned text))).1

theorem parse?_eq_none_iff {text : String} : parse? text = none ↔ isHost (host text) = false := by
  have read : parse? text = if isHost (host text) then some
      ⟨String.ofList (((splitHost (dropScheme (cleaned text))).2.takeWhile (· != '#')).takeWhile
          (· != '?')),
        (((splitHost (dropScheme (cleaned text))).2.takeWhile (· != '#')).dropWhile
          (· != '?')).drop 1⟩
      else none := rfl
  rw [read]
  cases isHost (host text) <;> simp

/-- A bracket, or a character whose compatibility form holds a delimiter. -/
def isSuspect (c : Char) : Bool :=
  c == '[' || c == ']' || hiddenDelimiters.contains c.toNat

theorem isHost_of_unsuspected {cs : List Char} (plain : ∀ c ∈ cs, isSuspect c = false) :
    isHost cs = true := by
  have absent : ∀ c, isSuspect c = true → cs.contains c = false := by
    intro c suspect
    rw [Bool.eq_false_iff, ne_eq, List.contains_iff_mem]
    intro member
    rw [plain c member] at suspect
    cases suspect
  have opening : cs.contains '[' = false := absent '[' rfl
  have closing : cs.contains ']' = false := absent ']' rfl
  have hidden : (cs.any fun c => hiddenDelimiters.contains c.toNat) = false := by
    rw [List.any_eq_false]
    intro c member bad
    have suspect : isSuspect c = true := by rw [isSuspect, bad, Bool.or_true]
    rw [plain c member] at suspect
    cases suspect
  rw [isHost, opening, closing, hidden]
  rfl

theorem mem_of_mem_host {text : String} {c : Char} (member : c ∈ host text) :
    c ∈ text.toList := by
  have scheme : ∀ cs, ∀ d ∈ dropScheme cs, d ∈ cs := by
    intro cs d inside
    unfold dropScheme at inside
    dsimp only at inside
    split at inside
    · split at inside
      · exact List.dropWhile_subset _ (List.drop_subset 1 _ inside)
      · exact inside
    · exact inside
  have split : ∀ cs, ∀ d ∈ (splitHost cs).1, d ∈ cs := by
    intro cs d inside
    unfold splitHost at inside
    split at inside
    · have later := List.takeWhile_subset _ inside
      simp [later]
    · cases inside
  have early := scheme _ c (split _ c member)
  exact List.dropWhile_subset _ (List.mem_of_mem_filter early)

theorem parse?_ne_none {text : String} (plain : ∀ c ∈ text.toList, isSuspect c = false) :
    parse? text ≠ none := by
  intro unread
  have named := isHost_of_unsuspected fun c member => plain c (mem_of_mem_host member)
  rw [parse?_eq_none_iff.1 unread] at named
  cases named

end Harvest.Link
