import Harvest.Proofs.Outcomes

namespace Harvest

def Failure.isDefinition : Failure → Bool
  | definition _ => true
  | _ => false

/-- If reading fails, the data are at fault and not the configuration. -/
def ReadsData {α : Type} (a : Except Failure α) : Prop :=
  ∀ f, a = .error f → f.isDefinition = false

namespace ReadsData

variable {α β : Type}

theorem ok (a : α) : ReadsData (.ok a) := by
  intro f h
  cases h

theorem bind {a : Except Failure α} {next : α → Except Failure β} (first : ReadsData a)
    (rest : ∀ v, ReadsData (next v)) : ReadsData (a >>= next) := by
  intro f h
  rcases bind_eq_error.1 h with early | ⟨v, -, late⟩
  · exact first f early
  · exact rest v f late

theorem mapM {read : α → Except Failure β} (each : ∀ a, ReadsData (read a)) (items : List α) :
    ReadsData (items.mapM read) := by
  intro f h
  obtain ⟨a, -, failed⟩ := mapM_eq_error h
  exact each a f failed

end ReadsData

def Ending.map {α β : Type} (f : α → β) : Ending α → Ending β
  | done a => done (f a)
  | failed f => failed f
  | waiting => waiting
  | exhausted => exhausted

namespace Run

variable {σ α β : Type}

theorem bind_done (r : Run σ α) (f : α → β) (w : σ) :
    (r >>= fun a => Run.done (f a)) w = ⟨(r w).world, (r w).events, (r w).ending.map f⟩ := by
  change andThen r _ w = _
  unfold andThen
  split
  · simp_all [Run.done, Ending.map]
  all_goals simp_all [Ending.map]

theorem bind_of_done {r : Run σ α} {w : σ} {a : α} (next : α → Run σ β)
    (h : (r w).ending = .done a) :
    (r >>= next) w = ⟨(next a (r w).world).world, (r w).events ++ (next a (r w).world).events,
      (next a (r w).world).ending⟩ := by
  change andThen r next w = _
  unfold andThen
  split <;> simp_all

theorem ending_bind_of_done {r : Run σ α} {w : σ} {a : α} (next : α → Run σ β)
    (h : (r w).ending = .done a) : ((r >>= next) w).ending = (next a (r w).world).ending := by
  rw [bind_of_done next h]

theorem bind_of_failed {r : Run σ α} {w : σ} {f : Failure} (next : α → Run σ β)
    (h : (r w).ending = .failed f) : (r >>= next) w = ⟨(r w).world, (r w).events, .failed f⟩ := by
  change andThen r next w = _
  unfold andThen
  split <;> simp_all

theorem bind_of_waiting {r : Run σ α} {w : σ} (next : α → Run σ β) (h : (r w).ending = .waiting) :
    (r >>= next) w = ⟨(r w).world, (r w).events, .waiting⟩ := by
  change andThen r next w = _
  unfold andThen
  split <;> simp_all

theorem bind_of_exhausted {r : Run σ α} {w : σ} (next : α → Run σ β)
    (h : (r w).ending = .exhausted) : (r >>= next) w = ⟨(r w).world, (r w).events, .exhausted⟩ := by
  change andThen r next w = _
  unfold andThen
  split <;> simp_all

theorem ending_bind_of_failed {r : Run σ α} {w : σ} {f : Failure} (next : α → Run σ β)
    (h : (r w).ending = .failed f) : ((r >>= next) w).ending = .failed f := by
  rw [bind_of_failed next h]

/-- The run ends with this result and leaves the world like that. -/
def Gives (r : Run σ α) (w : σ) (a : α) (w' : σ) : Prop :=
  (r w).ending = .done a ∧ (r w).world = w'

theorem Gives.done (a : α) (w : σ) : Gives (Run.done a) w a w :=
  ⟨rfl, rfl⟩

theorem Gives.emit (events : List Event) (w : σ) : Gives (Run.emit events) w () w :=
  ⟨rfl, rfl⟩

theorem Gives.ofExcept {e : Except Failure α} {a : α} (h : e = .ok a) (w : σ) :
    Gives (Run.ofExcept e) w a w := by
  subst h
  exact ⟨rfl, rfl⟩

theorem Gives.bind {r : Run σ α} {next : α → Run σ β} {w w' w'' : σ} {a : α} {b : β}
    (first : Gives r w a w') (rest : Gives (next a) w' b w'') : Gives (r >>= next) w b w'' := by
  obtain ⟨done, world⟩ := first
  subst world
  rw [Gives, bind_of_done next done]
  exact rest

theorem Gives.unique {r : Run σ α} {w w' w'' : σ} {a b : α} (first : Gives r w a w')
    (second : Gives r w b w'') : a = b ∧ w' = w'' :=
  ⟨Ending.done.inj (first.1.symm.trans second.1), first.2.symm.trans second.2⟩

theorem ending_ofNoted {a : Noted α} {v : α} (h : a.result = .ok v) (w : σ) :
    (ofNoted a w).ending = .done v := by
  simp [ofNoted, h]

/-- A property of runs that holds of those that only read data, of notices, and of what is put
together from runs that have it. -/
structure Composes (holds : ∀ {α : Type}, Run σ α → Prop) : Prop where
  ofExcept : ∀ {α : Type} {a : Except Failure α}, ReadsData a → holds (Run.ofExcept a)
  emit : ∀ n : Notice, holds (Run.emit [.notice n])
  bind : ∀ {α β : Type} {r : Run σ α} {next : α → Run σ β},
    holds r → (∀ a, holds (next a)) → holds (r >>= next)

theorem Composes.done {holds : ∀ {α : Type}, Run σ α → Prop} (composes : Composes holds) (a : α) :
    holds (Run.done a : Run σ α) :=
  composes.ofExcept (.ok a)

structure Within (may : Failure → Prop) (r : Run σ α) : Prop where
  events : ∀ w, ∀ e ∈ (r w).events, ∃ n, e = .notice n
  ending : ∀ w, (∃ a, (r w).ending = .done a) ∨ ∃ f, (r w).ending = .failed f ∧ may f

theorem Within.composes {may : Failure → Prop} (data : ∀ f, f.isDefinition = false → may f) :
    Composes (σ := σ) (Within may) where
  ofExcept {α a} h := by
    cases a with
    | ok a => exact ⟨by rintro w e ⟨⟩, fun w => .inl ⟨a, rfl⟩⟩
    | error f => exact ⟨by rintro w e ⟨⟩, fun w => .inr ⟨f, rfl, data f (h f rfl)⟩⟩
  emit n := by
    refine ⟨?_, fun w => .inl ⟨(), rfl⟩⟩
    intro w e member
    exact ⟨n, List.mem_singleton.1 member⟩
  bind {α β r next} first rest := by
    refine ⟨?_, ?_⟩
    · intro w e member
      rcases first.ending w with ⟨a, done⟩ | ⟨f, failed, -⟩
      · rw [bind_of_done next done] at member
        rcases List.mem_append.1 member with early | late
        · exact first.events w e early
        · exact (rest a).events _ e late
      · rw [bind_of_failed next failed] at member
        exact first.events w e member
    · intro w
      rcases first.ending w with ⟨a, done⟩ | ⟨f, failed, allowed⟩
      · rw [bind_of_done next done]
        exact (rest a).ending _
      · rw [bind_of_failed next failed]
        exact .inr ⟨f, rfl, allowed⟩

def Steady (r : Run σ α) : Prop :=
  ∃ result : Except Failure α, ∀ w, (r w).ending = match result with
    | .ok a => .done a
    | .error f => .failed f

theorem Steady.composes : Composes (σ := σ) Steady where
  ofExcept {α a} _ := by
    refine ⟨a, fun w => ?_⟩
    cases a <;> rfl
  emit n := ⟨.ok (), fun w => rfl⟩
  bind {α β r next} first rest := by
    obtain ⟨result, ending⟩ := first
    cases result with
    | error f =>
      refine ⟨.error f, fun w => ?_⟩
      rw [bind_of_failed next (ending w)]
    | ok a =>
      obtain ⟨result, ending'⟩ := rest a
      refine ⟨result, fun w => ?_⟩
      rw [bind_of_done next (ending w)]
      exact ending' _

end Run

end Harvest
