import Harvest.Proofs.Schedule.Calls

namespace Harvest.Schedule

variable {σ κ α β L : Type}

/-- Some steps lead from one state to the other, and these are the calls that they make. -/
def Path {S : Type} (step : S → L → S → Prop) (shown : L → List Event) (s : S)
    (sent : List (String × Call)) (s' : S) : Prop :=
  ∃ labels, Steps step s labels s' ∧ callsIn (labels.flatMap shown) = sent

namespace Path

variable {S : Type} {step : S → L → S → Prop} {shown : L → List Event} {s s' s'' : S}
  {sent sent' : List (String × Call)}

theorem refl (s : S) : Path step shown s [] s :=
  ⟨[], .nil, rfl⟩

theorem trans (first : Path step shown s sent s') (second : Path step shown s' sent' s'') :
    Path step shown s (sent ++ sent') s'' := by
  obtain ⟨labels, run, same⟩ := first
  obtain ⟨labels', run', same'⟩ := second
  exact ⟨labels ++ labels', run.trans run', by simp [same, same']⟩

theorem single {l : L} (h : step s l s') (same : callsIn (shown l) = sent) :
    Path step shown s sent s' :=
  ⟨[l], .single h, by simp [same]⟩

theorem snoc {l : L} (first : Path step shown s sent s') (h : step s' l s'')
    (quiet : callsIn (shown l) = []) : Path step shown s sent s'' := by
  simpa using first.trans (single h quiet)

end Path

theorem Path.exposed {step : Task κ α → L → Task κ α → Prop} {shown : L → List Event}
    {t t' : Task κ α} {sent : List (String × Call)} (path : Path step shown t sent t') :
    ∃ labels, Steps (Exposed step) t labels t' ∧ none ∉ labels ∧ calls shown labels = sent := by
  obtain ⟨labels, run, same⟩ := path
  exact ⟨labels.map some, run.exposed, by simp, by rw [calls_map_some, same]⟩

def Ends (step : Task κ α → L → Task κ α → Prop) (shown : L → List Event) (t : Task κ α) : Prop :=
  ∃ t', Path step shown t [] t' ∧ t'.ended.isSome

theorem Ends.of_ended {step : Task κ α → L → Task κ α → Prop} {shown : L → List Event}
    {t : Task κ α} (ended : t.ended.isSome) : Ends step shown t :=
  ⟨t, .refl t, ended⟩

namespace Owner

variable {child : Task κ α → L → Task κ α → Prop} (close : List α → List Event → TaskEnd β → Prop)
  {shown : L → List Event} (live : ∀ {t l t'}, child t l t' → t.ended = none)

include live

theorem lift {b : Batch κ α} (told : Bool) {n : Nat} {t t' : Task κ α}
    {sent : List (String × Call)} (found : b.tasks[n]? = some t) (running : t.ended = none)
    (path : Path child shown t sent t') :
    Path (Step child close) (OwnerLabel.events shown) ⟨b, told, none⟩ sent
      ⟨⟨b.tasks.set n t', b.first.or t'.failure?, b.cause⟩, told, none⟩ := by
  obtain ⟨inBounds, here⟩ := List.getElem?_eq_some_iff.1 found
  obtain ⟨labels, run, rfl⟩ := path
  induction run with
  | nil =>
    rw [Task.failure?_of_running running, Option.or_none, ← here, List.set_getElem_self]
    exact .refl _
  | @snoc labels t' l t'' _ last ih =>
    have reached : (b.tasks.set n t')[n]? = some t' := by simp [inBounds]
    have next : Path (Step child close) (OwnerLabel.events shown)
        ⟨⟨b.tasks.set n t', b.first, b.cause⟩, told, none⟩ (callsIn (shown l)) _ :=
      .single (.task reached last) rfl
    rw [Task.failure?_of_running (live last), Option.or_none] at ih
    simpa [Batch.put] using ih.trans next

abbrev Goals (child : Task κ α → L → Task κ α → Prop) (shown : L → List Event)
    (tasks : List (Task κ α)) (goals : List (List (String × Call) × Task κ α)) : Prop :=
  List.Forall₂ (fun t goal => Path child shown t goal.1 goal.2) tasks goals

theorem in_order (told : Bool) {behind : List (Task κ α)}
    {goals : List (List (String × Call) × Task κ α)} (paths : Goals child shown behind goals)
    (running : ∀ t ∈ behind, t.ended = none) (front : List (Task κ α)) (first : Option Failure)
    (cause : Option Cause) :
    Path (Step child close) (OwnerLabel.events shown) ⟨⟨front ++ behind, first, cause⟩, told, none⟩
      (goals.flatMap (·.1))
      ⟨⟨front ++ goals.map (·.2), first.or (goals.findSome? (·.2.failure?)), cause⟩, told, none⟩ := by
  induction paths generalizing front first with
  | nil => simpa using Path.refl _
  | @cons t goal behind goals path _ ih =>
    obtain ⟨here, others⟩ := List.forall_mem_cons.1 running
    have found : (Batch.mk (front ++ t :: behind) first cause).tasks[front.length]? = some t := by
      simp
    have lifted := lift close live told found here path
    have rest := ih others (front ++ [goal.2]) (first.or goal.2.failure?)
    have firsts : ((goal :: goals).findSome? (·.2.failure?)) =
        goal.2.failure?.or (goals.findSome? (·.2.failure?)) := by
      cases failed : goal.2.failure? <;> simp [failed]
    have reached : (front ++ t :: behind).set front.length goal.2 = front ++ [goal.2] ++ behind := by
      simp
    simp only [reached] at lifted
    simpa [firsts, Option.or_assoc] using lifted.trans rest

theorem joins {b : Batch κ α} (told : Bool) (ends : ∀ t ∈ b.tasks, Ends child shown t) :
    ∃ b', Path (Step child close) (OwnerLabel.events shown) ⟨b, told, none⟩ [] ⟨b', told, none⟩ ∧
      b'.Joined ∧ b'.cause = b.cause := by
  -- the tasks in front have ended, those behind have still to be led there
  suffices led : ∀ behind front : List (Task κ α), ∀ b : Batch κ α, b.tasks = front ++ behind →
      (∀ t ∈ front, t.ended.isSome) → (∀ t ∈ behind, Ends child shown t) →
      ∃ b', Path (Step child close) (OwnerLabel.events shown) ⟨b, told, none⟩ [] ⟨b', told, none⟩ ∧
        b'.Joined ∧ b'.cause = b.cause from led b.tasks [] b rfl (by simp) ends
  intro behind
  induction behind with
  | nil =>
    intro front b split ended _
    refine ⟨b, .refl _, ?_, rfl⟩
    simpa [Batch.Joined, split] using ended
  | cons t behind ih =>
    intro front b split ended ends
    obtain ⟨⟨t', path, finished⟩, others⟩ := List.forall_mem_cons.1 ends
    have inFront : ∀ u, u.ended.isSome → ∀ v ∈ front ++ [u], v.ended.isSome := by
      intro u last v inside
      rcases List.mem_append.1 inside with old | new
      · exact ended v old
      · exact List.mem_singleton.1 new ▸ last
    cases running : t.ended with
    | some e => exact ih (front ++ [t]) b (by simp [split]) (inFront t (by simp [running])) others
    | none =>
      have found : b.tasks[front.length]? = some t := by simp [split]
      have lifted := lift close live told found running path
      obtain ⟨b', rest, joined, cause⟩ := ih (front ++ [t'])
        ⟨b.tasks.set front.length t', b.first.or t'.failure?, b.cause⟩ (by simp [split])
        (inFront t' finished) others
      exact ⟨b', lifted.trans rest, joined, cause⟩

theorem ends_of_giveUp {b : Batch κ α} (c : Cause) (ends : ∀ t ∈ b.tasks, Ends child shown t.tell) :
    ∃ o, Path (Step child close) (OwnerLabel.events shown) ⟨b.giveUp c, false, none⟩ [] o ∧
      o.ended = some (.raised c) := by
  have told : ∀ t ∈ (b.giveUp c).tasks, Ends child shown t := by
    intro t inside
    obtain ⟨u, member, rfl⟩ := List.mem_map.1 inside
    exact ends u member
  obtain ⟨b', path, joined, cause⟩ := joins close live false told
  exact ⟨_, path.snoc (.released cause joined) rfl, rfl⟩

theorem ends_of_told {b : Batch κ α} (ends : ∀ t ∈ b.tasks, Ends child shown t.tell) :
    Ends (Step child close) (OwnerLabel.events shown) ⟨b, true, none⟩ := by
  obtain ⟨o, path, ended⟩ := ends_of_giveUp close live .cancellation ends
  have begun : Path (Step child close) (OwnerLabel.events shown) ⟨b, true, none⟩ []
      ⟨b.giveUp .cancellation, false, none⟩ := .single .told rfl
  exact ⟨o, begun.trans path, by simp [ended]⟩

theorem raises_first {o : Owner κ α β} {sent : List (String × Call)} {b : Batch κ α}
    (path : Path (Step child close) (OwnerLabel.events shown) o sent ⟨b, false, none⟩)
    (goingOn : b.cause = none) {f : Failure} (first : b.first = some f)
    (ends : ∀ t ∈ b.tasks, Ends child shown t.tell) :
    ∃ o', Path (Step child close) (OwnerLabel.events shown) o sent o' ∧
      o'.ended = some (.raised (.failure f)) := by
  obtain ⟨o', rest, ended⟩ := ends_of_giveUp close live (.failure f) ends
  have caught := path.snoc (.caught goingOn first) rfl
  exact ⟨o', by simpa using caught.trans rest, ended⟩

end Owner

theorem ContextTask.ends_of_told (s : Surroundings σ) (ch : Channel) (t : ContextTask) :
    Ends (Step s ch) id t.tell := by
  obtain ⟨state, told, ended⟩ := t
  cases ended with
  | some e => exact .of_ended rfl
  | none =>
    refine ⟨_, .single .cancelled ?_, rfl⟩
    cases state <;> rfl

namespace JobTask

variable {s : Surroundings σ} {adapter typeName : Value} {p : Plan}
  {firsts : Except Failure (List (Value × Call))}

theorem own {o o' : Owner ContextState Traversal.Fetched (List Item)} {sent : List (String × Call)}
    (path : Path (Owning s typeName p) (OwnerLabel.events id) o sent o') :
    Path (Step s adapter typeName) (OwnerLabel.events id)
      ⟨⟨p, firsts, some o.state⟩, o.told, o.ended⟩ sent
      ⟨⟨p, firsts, some o'.state⟩, o'.told, o'.ended⟩ := by
  obtain ⟨labels, run, same⟩ := path
  refine ⟨labels, ?_, same⟩
  clear same
  induction run with
  | nil => exact .nil
  | snoc _ last ih =>
    have running := last.running
    refine ih.snoc ?_
    rw [running]
    refine .owning ?_
    rw [← running]
    exact last

theorem ends_of_told (s : Surroundings σ) (adapter typeName : Value) (t : JobTask) :
    Ends (Step s adapter typeName) (OwnerLabel.events id) t.tell := by
  obtain ⟨⟨p, firsts, batch⟩, told, ended⟩ := t
  cases ended with
  | some e => exact .of_ended rfl
  | none =>
    cases batch with
    | none => exact ⟨_, .single .unbegun rfl, rfl⟩
    | some b =>
      obtain ⟨o, path, ended⟩ := Owner.ends_of_told (b := b) (Extracts s p typeName)
        ContextTask.Step.running fun t _ => ContextTask.ends_of_told s p.channel t
      exact ⟨_, own path, ended⟩

end JobTask

end Harvest.Schedule
