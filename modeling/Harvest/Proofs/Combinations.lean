import Harvest.Proofs.Pool
import Harvest.Proofs.Sorting

namespace Harvest.Pool

/-- The number that goes on with these digits behind the leading ones. Each digit stands behind its
base. -/
def number (leading : Nat) (digits : List (Nat × Nat)) : Nat :=
  digits.foldl (fun before d => before * d.1 + d.2) leading

theorem number_eq (leading : Nat) (digits : List (Nat × Nat)) :
    number leading digits = leading * (digits.map (·.1)).prod + number 0 digits := by
  induction digits generalizing leading with
  | nil => simp [number]
  | cons d rest ih =>
    have first : number leading (d :: rest) = number (leading * d.1 + d.2) rest := rfl
    have zero : number 0 (d :: rest) = number d.2 rest := by simp [number]
    rw [first, zero, ih, ih d.2, List.map_cons, List.prod_cons]
    ring

theorem getElem?_flatMap_blocks {α β : Type} {values : List α} {block : α → List β} {size : Nat}
    (same : ∀ v, (block v).length = size) {i j : Nat} (inside : j < size) :
    (values.flatMap block)[i * size + j]? = values[i]?.bind fun v => (block v)[j]? := by
  induction values generalizing i with
  | nil => rfl
  | cons v rest ih =>
    rw [List.flatMap_cons]
    cases i with
    | zero =>
      rw [List.getElem?_append_left (by rw [same]; omega)]
      simp
    | succ i =>
      have beyond : (block v).length ≤ (i + 1) * size + j := by rw [same, Nat.succ_mul]; omega
      have behind : (i + 1) * size + j - (block v).length = i * size + j := by
        rw [same, Nat.succ_mul]
        omega
      rw [List.getElem?_append_right beyond, behind, ih]
      rfl

def taken (choices : List (String × List Value)) (digits : List Nat) : Fields :=
  List.zipWith (fun choice i => (choice.1, choice.2.getD i .null)) choices digits

def position (choices : List (String × List Value)) (digits : List Nat) : Nat :=
  number 0 (List.zipWith (fun choice i => (choice.2.length, i)) choices digits)

theorem length_product_eq (choices : List (String × List Value)) :
    (product choices).length = (choices.map (·.2.length)).prod := by
  rw [length_product, List.prod_eq_foldr, List.foldr_map]

theorem getElem?_product {choices : List (String × List Value)} {digits : List Nat}
    (within : List.Forall₂ (fun choice i => i < choice.2.length) choices digits) :
    (product choices)[position choices digits]? = some (taken choices digits) := by
  induction within with
  | nil => rfl
  | @cons choice i rest digits here within ih =>
    obtain ⟨root, values⟩ := choice
    have bases : (List.zipWith (fun choice i => (choice.2.length, i)) rest digits).map (·.1) =
        rest.map (·.2.length) := by
      clear ih
      induction within with
      | nil => rfl
      | cons _ _ ih => simp [ih]
    have place : position ((root, values) :: rest) (i :: digits) =
        i * (product rest).length + position rest digits := by
      rw [position, List.zipWith_cons_cons, length_product_eq, position, ← bases, ← number_eq]
      simp [number]
    have inside : position rest digits < (product rest).length :=
      (List.getElem?_eq_some_iff.1 ih).1
    rw [place, product, getElem?_flatMap_blocks (by simp) inside, List.getElem?_eq_getElem here,
      Option.bind_some, List.getElem?_map, ih, Option.map_some]
    simp [taken, here]

theorem keys_taken {choices : List (String × List Value)} {digits : List Nat}
    (same : choices.length = digits.length) :
    Members.keys (taken choices digits) = choices.map (·.1) := by
  induction choices generalizing digits with
  | nil => rfl
  | cons choice rest ih =>
    cases digits with
    | nil => cases same
    | cons i digits => exact congrArg (choice.1 :: ·) (ih (Nat.succ.inj same))

theorem exists_combination {roots : List String} {cands : String → List Value}
    (distinct : roots.Nodup) {digits : List Nat}
    (within : List.Forall₂ (fun root i => i < (cands root).length) roots digits) :
    ∃ context, (product (assigned roots cands))[number 0
        (List.zipWith (fun root i => ((cands root).length, i)) roots digits)]? = some context ∧
      Members.keys context = roots ∧
      ∀ (j : Nat) root i, roots[j]? = some root → digits[j]? = some i →
        Members.get? context root = (cands root)[i]? := by
  have chosen : List.Forall₂ (fun choice i => i < choice.2.length) (assigned roots cands) digits :=
    List.forall₂_map_left_iff.2 within
  have place : position (assigned roots cands) digits =
      number 0 (List.zipWith (fun root i => ((cands root).length, i)) roots digits) := by
    rw [position, assigned, List.zipWith_map_left]
  have keys : Members.keys (taken (assigned roots cands) digits) = roots := by
    rw [keys_taken chosen.length_eq, assigned, List.map_map]
    exact List.map_id _
  refine ⟨taken (assigned roots cands) digits, place ▸ getElem?_product chosen, keys, ?_⟩
  intro j root i here digit
  obtain ⟨_, same, inside⟩ := getElem?_of_forall₂ within here
  obtain rfl := Option.some.inj (digit.symm.trans same)
  have member : (root, (cands root).getD i .null) ∈ taken (assigned roots cands) digits := by
    apply List.mem_of_getElem? (i := j)
    simp [taken, assigned, List.getElem?_zipWith, here, digit]
  rw [(Members.get?_eq_some_iff (keys.symm ▸ distinct)).2 member]
  simp [inside]

def ofLists (lists : List (String × List Value)) : Value :=
  .obj (lists.map fun m => (m.1, .arr m.2))

def listed (lists : List (String × List Value)) (root : String) : List Value :=
  (Members.get? lists root).getD []

/-- The distinct roots to vary: those that are given, or else all that are in the pool. -/
def rootsOf (lists : List (String × List Value)) (relevant : Option (List String)) : List String :=
  (relevant.getD (Members.keys lists)).eraseDups

def varied (pool : Value) : Option (List String) → Except Failure (List Root)
  | some roots => rootsIn (.strings roots)
  | none => allRoots pool

variable {lists : List (String × List Value)} {roots : List String}

theorem candidates_ofLists (root : String) :
    candidates (ofLists lists) (.named root) = .ok (listed lists root) := by
  unfold candidates ofLists listed
  dsimp only
  rw [get?_map fun m : String × List Value => Value.arr m.2]
  cases Members.get? lists root with
  | none => rfl
  | some values => cases values <;> rfl

theorem varied_ofLists (relevant : Option (List String)) :
    varied (ofLists lists) relevant =
      .ok ((relevant.getD (Members.keys lists)).map .named) := by
  cases relevant with
  | none => simp [varied, allRoots, ofLists, Members.keys]
  | some roots =>
    refine mapM_eq_ok.2 ?_
    rw [List.forall₂_map_left_iff, Option.getD_some, List.forall₂_map_right_iff, List.forall₂_same]
    exact fun _ _ => rfl

theorem choices_of_missing {pool : Value} {cands : String → List Value}
    (offers : ∀ root ∈ roots, candidates pool (.named root) = .ok (cands root))
    (missing : ∃ root ∈ roots, cands root = []) :
    (choices pool (roots.map .named)).result = .ok none := by
  induction roots with
  | nil =>
    obtain ⟨root, member, -⟩ := missing
    cases member
  | cons r rest ih =>
    simp only [List.map_cons, choices, Noted.bind_eq_ok, Noted.result_lift]
    refine ⟨cands r, offers r (by simp), ?_⟩
    by_cases here : cands r = []
    · simp [here, Noted.bind_eq_ok]
    · have later : ∃ root ∈ rest, cands root = [] := by
        obtain ⟨root, member, none⟩ := missing
        rcases List.mem_cons.1 member with rfl | behind
        · exact absurd none here
        · exact ⟨root, behind, none⟩
      have others := ih (fun root member => offers root (.tail r member)) later
      rw [if_neg (by simpa using here), Noted.bind_eq_ok]
      exact ⟨_, others, rfl⟩

theorem contexts_of_missing {pool : Value} {cands : String → List Value}
    (offers : ∀ root ∈ roots, candidates pool (.named root) = .ok (cands root))
    (missing : ∃ root ∈ roots, cands root = []) :
    (contexts pool (roots.map .named)).result = .ok [] := by
  have injective : Function.Injective Root.named := fun _ _ same => Root.named.inj same
  obtain ⟨root, member, bare⟩ := missing
  have nothing : (choices pool (roots.eraseDups.map .named)).result = .ok none :=
    choices_of_missing (fun root member => offers root (List.mem_eraseDups.1 member))
      ⟨root, List.mem_eraseDups.2 member, bare⟩
  unfold contexts
  rw [Distinct.eraseDups_map injective, Noted.bind_eq_ok]
  exact ⟨_, nothing, rfl⟩

/-- There are no contexts exactly if a root has no candidates. Else there is one for every choice of
one candidate for each distinct root, in the order of the numbers that the positions of the
candidates are the digits of. A context binds these roots and no others, each to the candidate that
was chosen. -/
theorem contexts_enumerate (lists : List (String × List Value)) (relevant : Option (List String)) :
    ∃ all, (Noted.lift (varied (ofLists lists) relevant) >>= contexts (ofLists lists)).result =
        .ok all ∧
      (all = [] ↔ ∃ root ∈ rootsOf lists relevant, listed lists root = []) ∧
      (all ≠ [] →
        all.length = ((rootsOf lists relevant).map fun root => (listed lists root).length).prod ∧
        ∀ digits : List Nat, List.Forall₂ (fun root i => i < (listed lists root).length)
            (rootsOf lists relevant) digits →
          ∃ context, all[number 0 (List.zipWith (fun root i => ((listed lists root).length, i))
              (rootsOf lists relevant) digits)]? = some context ∧
            Members.keys context = rootsOf lists relevant ∧
            ∀ (j : Nat) root i, (rootsOf lists relevant)[j]? = some root → digits[j]? = some i →
              Members.get? context root = (listed lists root)[i]?) ∧
      (rootsOf lists relevant = [] → all = [[]]) := by
  have offers : ∀ root ∈ relevant.getD (Members.keys lists),
      candidates (ofLists lists) (.named root) = .ok (listed lists root) :=
    fun root _ => candidates_ofLists root
  have asked : ∀ all, (contexts (ofLists lists) ((relevant.getD (Members.keys lists)).map
      .named)).result = .ok all →
      (Noted.lift (varied (ofLists lists) relevant) >>= contexts (ofLists lists)).result =
        .ok all := by
    intro all result
    exact Noted.bind_eq_ok.2 ⟨_, varied_ofLists relevant, result⟩
  have distinct : (rootsOf lists relevant).Nodup := Distinct.nodup_eraseDups _
  by_cases missing : ∃ root ∈ relevant.getD (Members.keys lists), listed lists root = []
  · refine ⟨[], asked _ (contexts_of_missing offers missing), ?_, fun some_all => absurd rfl some_all,
      fun none => ?_⟩
    · simpa [rootsOf, List.mem_eraseDups] using missing
    · obtain ⟨root, member, -⟩ := missing
      rw [Distinct.eraseDups_eq_nil_iff.1 none] at member
      cases member
  · have some_each : ∀ root ∈ relevant.getD (Members.keys lists), listed lists root ≠ [] :=
      fun root member bare => missing ⟨root, member, bare⟩
    have count : (product (assigned (rootsOf lists relevant) (listed lists))).length =
        ((rootsOf lists relevant).map fun root => (listed lists root).length).prod := by
      rw [length_product_eq, assigned, List.map_map]
      rfl
    refine ⟨_, asked _ (contexts_of_offers offers some_each), ?_,
      fun _ => ⟨count, fun digits within => exists_combination distinct within⟩, fun none => ?_⟩
    · rw [← List.length_eq_zero_iff]
      change (product (assigned (rootsOf lists relevant) (listed lists))).length = 0 ↔ _
      rw [count, List.prod_eq_zero_iff, List.mem_map]
      simp only [List.length_eq_zero_iff]
    · change product (assigned (rootsOf lists relevant) (listed lists)) = _
      rw [none]
      rfl

example : (contexts (ofLists [("p", [.int 1, .bool true]), ("q", [.null, .null])])
      (["q", "p", "q"].map .named)).result =
    .ok [[("q", .null), ("p", .int 1)], [("q", .null), ("p", .bool true)],
      [("q", .null), ("p", .int 1)], [("q", .null), ("p", .bool true)]] := by
  rfl

end Harvest.Pool
