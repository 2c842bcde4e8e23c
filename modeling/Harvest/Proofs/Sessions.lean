import Mathlib.Data.List.Infix
import Harvest.Proofs.Identity
import Harvest.Wire.Session

namespace Harvest.Wire

/-- A call that can be sent: no header and no query argument has too many digits, unless the
argument is an integer by itself, which is handed on as it is. -/
structure Sends (call : Call) : Prop where
  arguments : ∀ a ∈ call.queryArgs, a.2.Overlong → ∃ n, a.2 = .int n
  headers : ∀ h ∈ call.headers, ¬ h.2.Overlong

theorem isEncodable_iff (v : Value) : isEncodable v = true ↔ (v.Overlong → ∃ n, v = .int n) := by
  cases v with
  | int n => exact ⟨fun _ _ => ⟨n, rfl⟩, fun _ => rfl⟩
  | _ => simp [isEncodable, Value.isWritable_eq_true_iff]

theorem isSendable_iff (call : Call) : isSendable call = true ↔ Sends call := by
  simp only [isSendable, Bool.and_eq_true, List.all_eq_true, isEncodable_iff,
    Value.isWritable_eq_true_iff]
  exact ⟨fun ⟨arguments, headers⟩ => ⟨arguments, headers⟩, fun sends => ⟨sends.1, sends.2⟩⟩

/-- The operations for which a session has to be there: to ask for it, and to send a call. -/
inductive Operation.Needs : Operation → Prop
  | read : Needs .read
  | execute {call : Call} {exchange : Exchange} (sends : Sends call) :
    Needs (.execute call exchange)

theorem Operation.needsSession_iff (operation : Operation) :
    operation.needsSession = true ↔ operation.Needs := by
  cases operation with
  | read => exact ⟨fun _ => .read, fun _ => rfl⟩
  | execute call exchange =>
    exact (isSendable_iff call).trans ⟨.execute, fun needs => match needs with | .execute h => h⟩
  | close | leave | lost => exact ⟨nofun, nofun⟩

inductive Operation.Ends : Operation → Prop
  | close : Ends .close
  | leave : Ends .leave

namespace Sessions

theorem eq_none_or_concat (s : Sessions) : s = none ∨ ∃ others b, s = ⟨others ++ [b]⟩ := by
  obtain ⟨isOpen⟩ := s
  rcases List.eq_nil_or_concat' isOpen with rfl | ⟨others, b, rfl⟩
  · exact .inl rfl
  · exact .inr ⟨others, b, rfl⟩

theorem exists_concat_of_currentOpen {s : Sessions} (last : s.currentOpen = true) :
    ∃ others, s = ⟨others ++ [true]⟩ := by
  obtain ⟨isOpen⟩ := s
  obtain ⟨others, rfl⟩ := List.getLast?_eq_some_iff.1 (beq_iff_eq.1 last)
  exact ⟨others, rfl⟩

@[simp] theorem isOpen_none : none.isOpen = [] := rfl

@[simp] theorem current?_concat (others : List Bool) (b : Bool) :
    current? ⟨others ++ [b]⟩ = some others.length := by
  simp [current?]

@[simp] theorem close_none : none.close = none := rfl

@[simp] theorem close_concat (others : List Bool) (b : Bool) :
    close ⟨others ++ [b]⟩ = ⟨others ++ [false]⟩ := by
  simp [close]

@[simp] theorem acquire_none : none.acquire = ⟨[true]⟩ := rfl

@[simp] theorem acquire_open (others : List Bool) :
    acquire ⟨others ++ [true]⟩ = ⟨others ++ [true]⟩ := by
  simp [acquire, currentOpen]

@[simp] theorem acquire_closed (others : List Bool) :
    acquire ⟨others ++ [false]⟩ = ⟨others ++ [false, true]⟩ := by
  simp [acquire, currentOpen]

theorem close_close (s : Sessions) : s.close.close = s.close := by
  rcases eq_none_or_concat s with rfl | ⟨others, b, rfl⟩ <;> simp

theorem length_close (s : Sessions) : s.close.isOpen.length = s.isOpen.length := by
  rcases eq_none_or_concat s with rfl | ⟨others, b, rfl⟩ <;> simp

variable {operation : Operation}

theorem after_of_needsSession (s : Sessions) (needs : operation.needsSession = true) :
    s.after operation = s.acquire :=
  if_pos needs

theorem after_of_needless (s : Sessions) (needless : operation.needsSession = false) :
    s.after operation = s ∨ s.after operation = s.close := by
  cases operation with
  | read => cases needless
  | execute call exchange => exact .inl (by simp [after, needless])
  | close | leave | lost => exact .inr rfl

theorem after_of_ends (s : Sessions) (ends : operation.Ends) : s.after operation = s.close := by
  cases ends <;> rfl

/-- The operation works with a session, and it is open. -/
def Serves (s : Sessions) (operation : Operation) : Prop :=
  ∃ i, s.serving operation = some i ∧ (s.after operation).isOpen[i]? = some true

theorem serves_of_needs (s : Sessions) (needs : operation.Needs) : s.Serves operation := by
  have needs := (Operation.needsSession_iff operation).2 needs
  obtain ⟨others, last⟩ := exists_concat_of_currentOpen (currentOpen_acquire s)
  rw [← after_of_needsSession s needs] at last
  refine ⟨others.length, ?_, by simp [last]⟩
  rw [serving, if_pos needs, last, current?_concat]

/-- There is no session, or the current one is closed. -/
def Lacks (s : Sessions) : Prop :=
  s.isOpen = [] ∨ s.isOpen.getLast? = some false

theorem isOpen_acquire_of_lacks {s : Sessions} (lacks : s.Lacks) :
    s.acquire.isOpen = s.isOpen ++ [true] := by
  rcases eq_none_or_concat s with rfl | ⟨others, b, rfl⟩
  · simp
  · cases b <;> simp_all [Lacks]

theorem acquire_of_not_lacks {s : Sessions} (has : ¬ s.Lacks) : s.acquire = s := by
  rcases eq_none_or_concat s with rfl | ⟨others, b, rfl⟩
  · exact absurd (.inl rfl) has
  · cases b with
    | true => simp
    | false => exact absurd (.inr (by simp)) has

theorem isOpen_after_of_lacks {s : Sessions} (needs : operation.Needs) (lacks : s.Lacks) :
    (s.after operation).isOpen = s.isOpen ++ [true] := by
  rw [after_of_needsSession s ((Operation.needsSession_iff operation).2 needs),
    isOpen_acquire_of_lacks lacks]

theorem length_after {s : Sessions} (spared : ¬ (operation.Needs ∧ s.Lacks)) :
    (s.after operation).isOpen.length = s.isOpen.length := by
  cases needs : operation.needsSession with
  | true =>
    have has : ¬ s.Lacks := fun lacks =>
      spared ⟨(Operation.needsSession_iff operation).1 needs, lacks⟩
    rw [after_of_needsSession s needs, acquire_of_not_lacks has]
  | false =>
    rcases after_of_needless s needs with same | same <;> rw [same]
    exact length_close s

/-- Every session but the current one is closed. -/
def OthersClosed (s : Sessions) : Prop :=
  true ∉ s.isOpen.dropLast

namespace OthersClosed

variable {s : Sessions}

theorem acquire (kept : s.OthersClosed) : s.acquire.OthersClosed := by
  rcases eq_none_or_concat s with rfl | ⟨others, b, rfl⟩
  · simp [OthersClosed]
  · cases b with
    | true => simpa using kept
    | false => simpa [OthersClosed, List.dropLast_append] using kept

theorem notMem_close (kept : s.OthersClosed) : true ∉ s.close.isOpen := by
  rcases eq_none_or_concat s with rfl | ⟨others, b, rfl⟩
  · simp
  · simpa [OthersClosed] using kept

theorem close (kept : s.OthersClosed) : s.close.OthersClosed :=
  fun among => kept.notMem_close (List.mem_of_mem_dropLast among)

theorem after (kept : s.OthersClosed) (operation : Operation) :
    (s.after operation).OthersClosed := by
  cases needs : operation.needsSession with
  | true =>
    rw [after_of_needsSession s needs]
    exact kept.acquire
  | false =>
    rcases after_of_needless s needs with same | same <;> rw [same]
    · exact kept
    · exact kept.close

theorem foldl_after (kept : s.OthersClosed) (operations : List Operation) :
    (operations.foldl Sessions.after s).OthersClosed := by
  induction operations generalizing s with
  | nil => exact kept
  | cons operation rest ih => exact ih (kept.after operation)

theorem since (operations : List Operation) : (since operations).OthersClosed :=
  foldl_after (by simp [OthersClosed]) operations

theorem count_open_le (kept : s.OthersClosed) : s.isOpen.count true ≤ 1 := by
  rcases eq_none_or_concat s with rfl | ⟨others, b, rfl⟩
  · simp
  · have others_closed : others.count true = 0 := by
      simpa [OthersClosed, List.count_eq_zero] using kept
    rw [List.count_append, others_closed, Nat.zero_add]
    exact List.count_le_length

end OthersClosed

/-- What a client keeps to after any operations, and in whatever is done next: at most one of its
sessions is open. To ask for the session brings an open one, and every call that can be sent is sent
on an open one, for which one is made exactly if there is none or the current one is closed.
Closing, or leaving, leaves no session open; to close again changes nothing, and makes none. -/
theorem since_managed (operations : List Operation) (next : Operation) :
    (since operations).isOpen.count true ≤ 1 ∧
    (since operations).Serves .read ∧
    (∀ call exchange, Sends call → (since operations).Serves (.execute call exchange)) ∧
    (next.Needs → (since operations).Lacks →
      ((since operations).after next).isOpen = (since operations).isOpen ++ [true]) ∧
    (¬ (next.Needs ∧ (since operations).Lacks) →
      ((since operations).after next).isOpen.length = (since operations).isOpen.length) ∧
    (next.Ends → true ∉ ((since operations).after next).isOpen) ∧
    (next.Ends →
      ((since operations).after next).isOpen.length = (since operations).isOpen.length ∧
      ((since operations).after next).after next = (since operations).after next) := by
  have kept := OthersClosed.since operations
  refine ⟨kept.count_open_le, serves_of_needs _ .read,
    fun _ _ sends => serves_of_needs _ (.execute sends), isOpen_after_of_lacks, length_after,
    fun ends => ?_, fun ends => ?_⟩
  · rw [after_of_ends _ ends]
    exact kept.notMem_close
  · rw [after_of_ends _ ends, after_of_ends _ ends]
    exact ⟨length_close _, close_close _⟩

def pagedCall : Call :=
  ⟨"/a", .get, [("page", .int 2)], [("Accept", .str "text/html")], .null⟩

theorem second_session_closed :
    let failing := Operation.execute pagedCall (.broken "reset")
    Sends pagedCall ∧ failing.Needs ∧ (since [failing, .lost]).Lacks ∧ Operation.leave.Ends ∧
    (since [failing, .lost]).Serves failing ∧
    (since [failing, .lost]).serving failing = some 1 ∧
    (since [failing, .lost, failing]).isOpen = [false, true] ∧
    true ∉ (since [failing, .lost, failing, .leave]).isOpen := by
  intro failing
  have sends : Sends pagedCall := (isSendable_iff pagedCall).1 (by decide +kernel)
  have needs : failing.Needs := .execute sends
  have lacks : (since [failing, .lost]).Lacks := .inr (by decide +kernel)
  exact ⟨sends, needs, lacks, .leave, (since_managed [failing, .lost] failing).2.2.1 _ _ sends,
    by decide +kernel, (since_managed [failing, .lost] failing).2.2.2.1 needs lacks,
    (since_managed [failing, .lost, failing] .leave).2.2.2.2.2.1 .leave⟩

end Sessions

end Harvest.Wire
