import Mathlib.Data.List.Forall2
import Harvest.Config.Record
import Harvest.Run

namespace Harvest

section Except

variable {α β ε : Type}

@[simp] theorem pure_eq_ok (a : α) : (pure a : Except ε α) = .ok a := rfl

@[simp] theorem ok_bind (a : α) (next : α → Except ε β) : (.ok a >>= next) = next a := rfl

@[simp] theorem error_bind (e : ε) (next : α → Except ε β) : (.error e >>= next) = .error e := rfl

theorem bind_eq_ok {a : Except ε α} {next : α → Except ε β} {b : β} :
    (a >>= next) = .ok b ↔ ∃ v, a = .ok v ∧ next v = .ok b := by
  cases a <;> simp

theorem bind_eq_error {a : Except ε α} {next : α → Except ε β} {e : ε} :
    (a >>= next) = .error e ↔ a = .error e ∨ ∃ v, a = .ok v ∧ next v = .error e := by
  cases a <;> simp

theorem bind_eq_error_of_not_and {P Q : Prop} {a : Except ε α} {next : α → Except ε β} {e : ε}
    (done : P → ∃ v, a = .ok v) (fails : ¬ P → a = .error e)
    (later : ∀ v, ¬ Q → next v = .error e) (other : ¬ (P ∧ Q)) : (a >>= next) = .error e := by
  by_cases first : P
  · obtain ⟨v, same⟩ := done first
    rw [same, ok_bind]
    exact later v fun second => other ⟨first, second⟩
  · rw [fails first, error_bind]

theorem map_eq_ok {a : Except ε α} {f : α → β} {b : β} :
    a.map f = .ok b ↔ ∃ v, a = .ok v ∧ f v = b := by
  cases a <;> simp [Except.map]

theorem mapM_eq_ok {f : α → Except ε β} {items : List α} {results : List β} :
    items.mapM f = .ok results ↔ List.Forall₂ (fun a b => f a = .ok b) items results := by
  induction items generalizing results with
  | nil => cases results <;> simp [Pure.pure, Except.pure]
  | cons a rest ih =>
    rw [List.mapM_cons, bind_eq_ok]
    constructor
    · rintro ⟨b, head, whole⟩
      obtain ⟨others, tail, same⟩ := bind_eq_ok.1 whole
      cases same
      exact .cons head (ih.1 tail)
    · intro all
      cases all with
      | cons head tail => exact ⟨_, head, bind_eq_ok.2 ⟨_, ih.2 tail, rfl⟩⟩

theorem getElem?_of_forall₂ {R : α → β → Prop} {items : List α} {results : List β}
    (all : List.Forall₂ R items results) {n : Nat} {a : α} (found : items[n]? = some a) :
    ∃ b, results[n]? = some b ∧ R a b := by
  induction all generalizing n with
  | nil => simp at found
  | cons head _ ih =>
    cases n with
    | zero =>
      obtain rfl : _ = a := Option.some.inj found
      exact ⟨_, rfl, head⟩
    | succ n => exact ih (by simpa using found)

theorem forall₂_through {γ : Type} {R : α → β → Prop} {S : β → γ → Prop} {T : α → γ → Prop}
    (through : ∀ a b c, R a b → S b c → T a c) {items : List α} {middle : List β}
    {results : List γ} (first : List.Forall₂ R items middle)
    (second : List.Forall₂ S middle results) : List.Forall₂ T items results := by
  induction first generalizing results with
  | nil =>
    cases second
    exact .nil
  | cons head _ ih =>
    cases second with
    | cons other rest => exact .cons (through _ _ _ head other) (ih rest)

theorem mapM_eq_error_iff {f : α → Except ε β} {items : List α} {e : ε} :
    items.mapM f = .error e ↔ ∃ front a behind, items = front ++ a :: behind ∧
      (∀ b ∈ front, ∃ v, f b = .ok v) ∧ f a = .error e := by
  induction items with
  | nil => simp [Pure.pure, Except.pure]
  | cons first rest ih =>
    rw [List.mapM_cons]
    cases here : f first with
    | error e' =>
      constructor
      · rintro ⟨⟩
        exact ⟨[], first, rest, rfl, by simp, here⟩
      · rintro ⟨front, a, behind, split, before, failed⟩
        cases front with
        | nil =>
          obtain ⟨rfl, rfl⟩ := List.cons.inj split
          rw [← here, failed]
          rfl
        | cons b others =>
          obtain ⟨rfl, -⟩ := List.cons.inj split
          obtain ⟨v, passed⟩ := before first List.mem_cons_self
          cases here.symm.trans passed
    | ok v =>
      have later : (do let others ← rest.mapM f; pure (v :: others)) = (.error e : Except ε _) ↔
          rest.mapM f = .error e := by
        cases rest.mapM f <;> simp
      rw [ok_bind, later, ih]
      constructor
      · rintro ⟨front, a, behind, rfl, before, failed⟩
        exact ⟨first :: front, a, behind, rfl, List.forall_mem_cons.2 ⟨⟨v, here⟩, before⟩, failed⟩
      · rintro ⟨front, a, behind, split, before, failed⟩
        cases front with
        | nil =>
          obtain ⟨rfl, rfl⟩ := List.cons.inj split
          cases here.symm.trans failed
        | cons b others =>
          obtain ⟨rfl, rfl⟩ := List.cons.inj split
          exact ⟨others, a, behind, rfl, (List.forall_mem_cons.1 before).2, failed⟩

theorem mapM_eq_error {f : α → Except ε β} {items : List α} {e : ε} (h : items.mapM f = .error e) :
    ∃ a ∈ items, f a = .error e := by
  obtain ⟨front, a, behind, rfl, -, failed⟩ := mapM_eq_error_iff.1 h
  exact ⟨a, by simp, failed⟩

end Except

section Related

variable {α β : Type} {R : α → β → Prop} {a : α} {found : Option α} {other : Option β}

theorem isSome_of_rel (related : Option.Rel R found other) : other.isSome = found.isSome := by
  cases related <;> rfl

theorem exists_of_rel (related : Option.Rel R (some a) other) : ∃ b, other = some b ∧ R a b := by
  cases related with
  | some holds => exact ⟨_, rfl, holds⟩

theorem eq_none_of_rel (related : Option.Rel R none other) : other = none := by
  cases related
  rfl

end Related

namespace Noted

variable {α β : Type}

@[simp] theorem result_pure (a : α) : (pure a : Noted α).result = .ok a := rfl

@[simp] theorem result_lift (result : Except Failure α) : (lift result).result = result := rfl

@[simp] theorem result_note (n : Notice) : (note n).result = .ok () := rfl

@[simp] theorem result_fail (f : Failure) : (fail f : Noted α).result = .error f := rfl

theorem result_bind (a : Noted α) (next : α → Noted β) :
    (a >>= next).result = a.result >>= fun v => (next v).result := by
  cases h : a.result <;> simp [Bind.bind, Noted.bind, Except.bind, h]

theorem result_bind_of_ok {a : Noted α} {next : α → Noted β} {v : α} (h : a.result = .ok v) :
    (a >>= next).result = (next v).result := by
  rw [result_bind, h]
  rfl

theorem result_bind_of_error {a : Noted α} {next : α → Noted β} {f : Failure}
    (h : a.result = .error f) : (a >>= next).result = .error f := by
  rw [result_bind, h]
  rfl

theorem bind_eq_ok {a : Noted α} {next : α → Noted β} {b : β} :
    (a >>= next).result = .ok b ↔ ∃ v, a.result = .ok v ∧ (next v).result = .ok b := by
  rw [result_bind, Harvest.bind_eq_ok]

end Noted

namespace Config

namespace Checked

variable {α β : Type}

theorem map_eq_ok {a : Checked α} {f : α → β} {b : β} :
    f <$> a = .ok b ↔ ∃ v, a = .ok v ∧ f v = b := by
  cases a <;> simp [Functor.map, Checked.map]

theorem seq_eq_ok {f : Checked (α → β)} {a : Checked α} {b : β} :
    f <*> a = .ok b ↔ ∃ g v, f = .ok g ∧ a = .ok v ∧ g v = b := by
  cases f <;> cases a <;> simp [Seq.seq, apply]

theorem under_eq_ok {a : Checked α} {step : Step} {b : α} : a.under step = .ok b ↔ a = .ok b := by
  cases a <;> simp [under]

end Checked

theorem Given.readClosed_eq_ok {α : Type} {kind : Kind} {build : Fields → Checked α}
    {members : Fields} {g : Given α} (h : readClosed kind build (.obj members) = .ok g) :
    build members = .ok g.value := by
  simp only [readClosed, read] at h
  cases whole : build members <* Field.only kind.memberNames members with
  | rejected issues => simp [whole, Checked.map] at h
  | ok a =>
    simp only [whole, Checked.map, Checked.ok.injEq] at h
    obtain ⟨_, _, first, -, same⟩ := Checked.seq_eq_ok.1 whole
    obtain ⟨b, built, rfl⟩ := Checked.map_eq_ok.1 first
    cases same
    rw [built, ← h]
    rfl

end Config

end Harvest
