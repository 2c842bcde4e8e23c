import Harvest.Proofs.Decimal.ReadBack
import Harvest.Proofs.Outcomes
import Harvest.Wire.Client

namespace Harvest.Wire

def givenHeaders (headers : List (String × String)) : Value :=
  .obj (headers.map fun h => (h.1, .str h.2))

/-- The session behaves as it is known to: it does not fail in an unknown way, and the status of an
answer is a whole number and its headers are texts. -/
def Exchange.IsKnown : Exchange → Prop
  | .broken _ | .refused _ _ => True
  | .foreign _ => False
  | .answered status _ headers _ => (∃ n, status = .int n) ∧ ∃ given, headers = givenHeaders given

/-- An answer came whose status does not tell of a failure and whose body is JSON, with the data,
status and headers of the page. -/
def Exchange.Brings (page : Page) (exchange : Exchange) : Prop :=
  page.status < 400 ∧ ∃ message, exchange =
    .answered (.int page.status) message (givenHeaders page.headers) (.data page.data)

def Body.statusOfFailure (answered : Value) : Body → Value
  | .data _ | .malformed _ => answered
  | .refused status _ => status
  | .interrupted _ => .null

/-- The status that a failure carries. That of the answer is lost if its body breaks off. -/
def Exchange.statusOfFailure : Exchange → Value
  | .broken _ | .foreign _ => .null
  | .refused status _ => status
  | .answered (.int status) _ _ body =>
    if 400 ≤ status then .int status else body.statusOfFailure (.int status)
  | .answered status _ _ _ => status

theorem less?_int (m n : Int) : Value.less? (.int m) (.int n) = some (decide (m < n)) := by
  -- said of any power, so that the one that counts the units is not computed
  have power (k : Nat) : (0 : Int) < (2 ^ k : Nat) := Int.natCast_pos.2 (Nat.two_pow_pos k)
  have positive : (0 : Int) < Decimal.unitsPerOne := Decimal.unitsPerOne_eq ▸ power 1074
  have scaled : m * (Decimal.unitsPerOne : Int) < n * Decimal.unitsPerOne ↔ m < n :=
    Int.mul_lt_mul_right positive
  exact congrArg some (decide_eq_decide.2 scaled)

theorem isFailing_int (n : Int) : isFailing (.int n) = .ok (decide (400 ≤ n)) := by
  rw [isFailing, less?_int]
  simp only [← decide_not, Int.not_lt]

theorem textPairs_given (headers : List (String × String)) :
    Config.Field.textPairs (headers.map fun h => (.str h.1, .str h.2)) = .ok headers := by
  induction headers with
  | nil => rfl
  | cons h rest ih =>
    rw [List.map_cons, Config.Field.textPairs, List.foldr_cons]
    rw [Config.Field.textPairs] at ih
    rw [ih]
    rfl

theorem readPage_given (data : Value) (status : Int) (headers : List (String × String)) :
    readPage data (.int status) (givenHeaders headers) = .ok ⟨data, status, headers⟩ := by
  have pairs : (givenHeaders headers).pairs =
      .ok (headers.map fun h => (.str h.1, .str h.2)) := by
    simp [givenHeaders, Value.pairs]
  rw [readPage, pairs]
  change Failure.ofChecked .page (_ <*> (Config.Field.textPairs _).under _) = _
  rw [textPairs_given]
  rfl

theorem receive_answered (sent : Sent) (n : Int) (message : String)
    (given : List (String × String)) (body : Body) :
    sent.receive (.answered (.int n) message (givenHeaders given) body) =
      if 400 ≤ n then .error (sent.failedWith (.int n) message)
      else match body with
        | .malformed message => .error (.transport
            (sent.verb ++ " " ++ sent.url ++ " returned a non-JSON body: " ++ message) (.int n))
        | .refused status message => .error (sent.failedWith status message)
        | .interrupted message => .error (sent.lost message)
        | .data data => .ok ⟨data, n, given⟩ := by
  simp only [Sent.receive, isFailing_int, ok_bind, decide_eq_true_eq]
  by_cases failing : 400 ≤ n
  · simp only [failing, if_true]
    rfl
  · cases body with
    | data data => simp only [failing, if_false, readPage_given]
    | malformed _ | refused _ _ | interrupted _ =>
      simp only [failing, if_false]
      rfl

theorem receive_ok (sent : Sent) {exchange : Exchange} (known : exchange.IsKnown) (page : Page) :
    sent.receive exchange = .ok page ↔ exchange.Brings page := by
  constructor
  · intro taken
    cases exchange with
    | broken message | refused status message => cases taken
    | foreign message => exact known.elim
    | answered status message headers body =>
      obtain ⟨⟨n, rfl⟩, given, rfl⟩ := known
      rw [receive_answered] at taken
      split at taken
      case isTrue => cases taken
      case isFalse below =>
        cases body with
        | data data =>
          cases taken
          exact ⟨not_le.1 below, message, rfl⟩
        | malformed _ | refused _ _ | interrupted _ => cases taken
  · rintro ⟨below, message, rfl⟩
    rw [receive_answered, if_neg (not_le.2 below)]

/-- The failure is one of the transport with this status, unless the status has too many digits to be
put into its message. -/
def Tells (status : Value) (failure : Failure) : Prop :=
  (∃ message, failure = .transport message status) ∨
    failure = .unreadable ∧ status.isWritable = false

theorem tells_failedWith (sent : Sent) (status : Value) (message : String) :
    Tells status (sent.failedWith status message) := by
  unfold Sent.failedWith
  split
  next => exact .inl ⟨_, rfl⟩
  next unwritten => exact .inr ⟨rfl, Bool.eq_false_of_not_eq_true unwritten⟩

theorem receive_error (sent : Sent) {exchange : Exchange} (known : exchange.IsKnown)
    {failure : Failure} (failed : sent.receive exchange = .error failure) :
    Tells exchange.statusOfFailure failure := by
  cases exchange with
  | broken message =>
    cases failed
    exact .inl ⟨_, rfl⟩
  | refused status message =>
    cases failed
    exact tells_failedWith ..
  | foreign message => exact known.elim
  | answered status message headers body =>
    obtain ⟨⟨n, rfl⟩, given, rfl⟩ := known
    rw [receive_answered] at failed
    split at failed
    case isTrue failing =>
      rw [Exchange.statusOfFailure, if_pos failing]
      cases failed
      exact tells_failedWith ..
    case isFalse below =>
      rw [Exchange.statusOfFailure, if_neg below]
      cases body with
      | data data => cases failed
      | malformed _ | interrupted _ =>
        cases failed
        exact .inl ⟨_, rfl⟩
      | refused _ _ =>
        cases failed
        exact tells_failedWith ..

/-- What comes of a call. It brings a page exactly if it can be sent and its answer brings one, and
then the page of the answer. Otherwise the failure is one of the transport and carries the status
that is known; only a call that cannot be sent or a status that cannot be written fails otherwise. -/
theorem Setup.execute_outcome (setup : Setup) (call : Call) {exchange : Exchange}
    (known : exchange.IsKnown) :
    (∀ page, setup.execute call exchange = .ok page ↔
      isSendable call = true ∧ exchange.Brings page) ∧
    (isSendable call = true → ∀ failure, setup.execute call exchange = .error failure →
      Tells exchange.statusOfFailure failure) ∧
    (isSendable call = false → setup.execute call exchange = .error .unreadable) := by
  unfold Setup.execute
  cases isSendable call with
  | true => simpa using ⟨receive_ok _ known, fun _ => receive_error _ known⟩
  | false => simp

def pingCall : Call :=
  ⟨"/ping", .get, [], [], .null⟩

def bareSetup : Setup :=
  ⟨some "https://h", .null, []⟩

theorem ping_brought :
    Exchange.IsKnown (.answered (.int 200) "OK" (givenHeaders []) (.data (.str "pong"))) ∧
    bareSetup.execute pingCall
        (.answered (.int 200) "OK" (givenHeaders []) (.data (.str "pong"))) =
      .ok ⟨.str "pong", 200, []⟩ :=
  have known : Exchange.IsKnown
      (.answered (.int 200) "OK" (givenHeaders []) (.data (.str "pong"))) :=
    ⟨⟨200, rfl⟩, [], rfl⟩
  ⟨known, ((bareSetup.execute_outcome pingCall known).1 _).2 ⟨by decide, by decide, "OK", rfl⟩⟩

/-- An answer that tells of no change is no success, and yet brings a page; and behind a success the
status is lost with the body. -/
theorem not_modified_brought :
    bareSetup.execute pingCall
        (.answered (.int 304) "Not Modified" (givenHeaders []) (.data .null)) =
      .ok ⟨.null, 304, []⟩ ∧
    ∃ message, bareSetup.execute pingCall
        (.answered (.int 200) "OK" (givenHeaders []) (.interrupted "cut off")) =
      .error (.transport message .null) := by
  have sent : isSendable pingCall = true := by decide
  unfold Setup.execute
  constructor
  · rw [if_pos sent, receive_answered, if_neg (by decide)]
  · rw [if_pos sent, receive_answered, if_neg (by decide)]
    exact ⟨_, rfl⟩

end Harvest.Wire
