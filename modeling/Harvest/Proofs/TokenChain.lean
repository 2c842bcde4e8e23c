import Mathlib
import Harvest.Proofs.Course
import Harvest.Proofs.Lookup

namespace Harvest

namespace Pagination

/-- The token that a page holds. An absent one, null and the empty text are none; all else is one.
-/
def tokenOf? (tokenField : String) (page : Page) : Option Value :=
  match Value.lookup page.data tokenField with
  | .ok (some .null) | .ok (some (.str "")) => none
  | .ok (some v) => some v
  | _ => none

def asking (call : Call) (queryArg : String) : Option Value → Call
  | none => call
  | some token => call.carrying queryArg token

/-- What the calls of a traversal carry that sends these tokens: the first call carries none. -/
def carried (tokens : List Value) : List (Option Value) :=
  none :: tokens.map some

variable {tokenField queryArg : String} {page : Page} {call : Call} {tokens : List Value}
  {token : Option Value} {v : Value}

theorem carried_concat : carried (tokens ++ [v]) = carried tokens ++ [some v] := by
  simp [carried]

theorem getLast?_carried : (carried tokens).getLast? = some tokens.getLast? := by
  rcases List.eq_nil_or_concat tokens with rfl | ⟨front, last, rfl⟩
  · rfl
  · rw [List.concat_eq_append, carried_concat, List.getLast?_concat, List.getLast?_concat]

theorem carrying_asking : (asking call queryArg token).carrying queryArg v =
    asking call queryArg (some v) := by
  cases token with
  | none => rfl
  | some u => exact Call.carrying_carrying

theorem tokenOf?_eq_some : tokenOf? tokenField page = some v ↔
    Value.lookup page.data tokenField = .ok (some v) ∧ v ≠ .null ∧ v ≠ .str "" := by
  unfold tokenOf?
  split
  next null => simp_all
  next empty => simp_all
  next u noNull noEmpty found =>
    rw [found]
    constructor
    · rintro ⟨⟩
      exact ⟨rfl, noNull, noEmpty⟩
    · rintro ⟨same, -⟩
      cases same
      rfl
  next others => simp_all

theorem isNoToken_iff : isNoToken v = true ↔ v = .null ∨ v = .str "" := by
  cases v <;> simp [isNoToken]

theorem nextByToken_eq (call : Call) (free : queryArg ≠ "current") {found : Option Value}
    (read : Value.lookup page.data tokenField = .ok found) :
    nextByToken (.str tokenField) (.str queryArg) page call =
      .ok ((tokenOf? tokenField page).map (call.carrying queryArg)) := by
  have given : nextByToken (.str tokenField) (.str queryArg) page call =
      .ok (if isNoToken (found.getD .null) then none
        else some (call.carrying queryArg (found.getD .null))) := by
    rw [nextByToken, valueAt_of_lookup read, ok_bind, withArgument_eq_carrying free]
    split <;> rfl
  rw [given]
  cases held : tokenOf? tokenField page with
  | some v =>
    obtain ⟨there, some, nonempty⟩ := tokenOf?_eq_some.1 held
    obtain rfl := Except.ok.inj (read.symm.trans there)
    rw [if_neg (by simp [isNoToken_iff, some, nonempty])]
    rfl
  | none =>
    have no_token : isNoToken (found.getD .null) = true := by
      cases found with
      | none => rfl
      | some v =>
        by_contra token
        rw [isNoToken_iff, not_or] at token
        rw [tokenOf?_eq_some.2 ⟨read, token⟩] at held
        cases held
    rw [no_token]
    rfl

/-- A server that answers a call by the token it carries with pages of JSON data, on which tokens
can be looked up. Beside that the server may hold and count what it wants. -/
structure TokenServer {σ : Type} (execute : Traversal.Client σ) (call : Call)
    (tokenField queryArg : String) (answer : Option Value → Page) : Prop where
  free : queryArg ≠ "current"
  fresh : Members.get? call.queryArgs queryArg = none
  serves : ∀ token w, ∃ w', execute (asking call queryArg token) w = (.page (answer token), w')
  readable : ∀ token, ∃ found, Value.lookup (answer token).data tokenField = .ok found
  data : ∀ token, (answer token).data.IsData

namespace TokenServer

variable {σ : Type} {execute : Traversal.Client σ} {answer : Option Value → Page}

theorem isData (server : TokenServer execute call tokenField queryArg answer)
    (held : tokenOf? tokenField (answer token) = some v) : v.IsData := by
  refine Value.follow_inherits ?_ ?_ (server.data token) (tokenOf?_eq_some.1 held).1
  · rintro vs (_ | _ | _ | _ | _ | parts | _)
    exact parts
  · rintro ms (_ | _ | _ | _ | _ | _ | ⟨-, parts⟩)
    exact parts

theorem isWritable_asking (server : TokenServer execute call tokenField queryArg answer)
    (written : call.isWritable = true) (held : tokenOf? tokenField (answer token) = some v) :
    (asking call queryArg (some v)).isWritable = true ↔ ¬ v.Overlong := by
  have full : v.full = v := Value.full_of_isJson v (server.isData held).isJson
  rw [asking, Call.isWritable_carrying written, full, Value.isWritable_eq_true_iff]

end TokenServer

/-- Each of these tokens is held by the page that the one before asks for. -/
def Chain (answer : Option Value → Page) (tokenField : String) (tokens : List Value) : Prop :=
  (carried tokens).IsChain fun before after => tokenOf? tokenField (answer before) = after

/-- The tokens to which the first page leads. -/
inductive Reachable (answer : Option Value → Page) (tokenField : String) : Value → Prop
  | first {v : Value} (held : tokenOf? tokenField (answer none) = some v) :
    Reachable answer tokenField v
  | next {u v : Value} (reached : Reachable answer tokenField u)
      (held : tokenOf? tokenField (answer (some u)) = some v) : Reachable answer tokenField v

theorem Reachable.of_held {answer : Option Value → Page}
    (reached : ∀ v ∈ tokens, Reachable answer tokenField v)
    (held : tokenOf? tokenField (answer tokens.getLast?) = some v) :
    Reachable answer tokenField v := by
  cases last : tokens.getLast? with
  | none => exact .first (last ▸ held)
  | some u => exact .next (reached u (List.mem_of_getLast? last)) (last ▸ held)

theorem prefix_or_prefix {α : Type} {R : α → α → Prop} (decides : ∀ a b c, R a b → R a c → b = c)
    {first : α} {as bs : List α} (left : (first :: as).IsChain R)
    (right : (first :: bs).IsChain R) : as <+: bs ∨ bs <+: as := by
  induction as generalizing first bs with
  | nil => exact .inl List.nil_prefix
  | cons a as ih =>
    cases bs with
    | nil => exact .inr List.nil_prefix
    | cons b bs =>
      rw [List.isChain_cons_cons] at left right
      obtain rfl := decides first a b left.1 right.1
      simpa using ih left.2 right.2

theorem Chain.prefix_or_prefix {answer : Option Value → Page} {others : List Value}
    (left : Chain answer tokenField tokens) (right : Chain answer tokenField others) :
    tokens <+: others ∨ others <+: tokens := by
  have same := Pagination.prefix_or_prefix (fun _ _ _ h h' => h.symm.trans h') left right
  simpa [List.prefix_map_iff_of_injective (Option.some_injective _)] using same

theorem Chain.next {answer : Option Value → Page} {rest : List Value}
    (chain : Chain answer tokenField (tokens ++ v :: rest)) :
    tokenOf? tokenField (answer tokens.getLast?) = some v := by
  have parts : carried (tokens ++ v :: rest) = carried tokens ++ some v :: rest.map some := by
    simp [carried]
  rw [Chain, parts, List.isChain_append] at chain
  exact chain.2.2 _ (by rw [getLast?_carried]; rfl) _ rfl

end Pagination

namespace Traversal

open Pagination

variable {σ : Type} {client : String} {execute : Client σ} {endpoint : Value} {call : Call}
  {tokenField queryArg : String} {answer : Option Value → Page} {tokens : List Value} {limit : Nat}
  {context : Value} {first : Value × Call} {t : Traversal} {page : Page} {w w' : σ}
  {exchanges : List Exchange} {events : List Event} {o : Outcome σ Fetched} {warnings : Nat}
  {v : Value}

def byToken (tokenField queryArg : String) : Continuation :=
  (Strategy.token (.str tokenField) (.str queryArg)).next

/-- What holds while a traversal goes along the chain: it has sent these tokens, all of them
different, and the page for the last one has not come yet. -/
structure Sending (call : Call) (tokenField queryArg : String) (answer : Option Value → Page)
    (tokens : List Value) (t : Traversal) : Prop where
  chain : Chain answer tokenField tokens
  reached : ∀ v ∈ tokens, Reachable answer tokenField v
  data : ∀ v ∈ tokens, v.IsData
  short : ∀ v ∈ tokens, ¬ v.Overlong
  apart : tokens.Pairwise fun u v => ¬ u.Alike v
  current : t.current = asking call queryArg tokens.getLast?
  calls : t.calls = (carried tokens).map (asking call queryArg)
  pages : t.pages ++ [answer tokens.getLast?] = (carried tokens).map answer

theorem Sending.start (context : Value) (call : Call) :
    Sending call tokenField queryArg answer [] (.start context call) where
  chain := .singleton _
  reached := nofun
  data := nofun
  short := nofun
  apart := .nil
  current := rfl
  calls := rfl
  pages := rfl

theorem Sending.seen_iff (server : TokenServer execute call tokenField queryArg answer)
    (sending : Sending call tokenField queryArg answer tokens t) (token : v.IsData) :
    t.seen (asking call queryArg (some v)) = true ↔ ∃ u ∈ tokens, u.Alike v := by
  rw [seen_eq_true, sending.calls, List.map_map, List.mem_map]
  constructor
  · rintro ⟨_ | u, member, same⟩
    · exact absurd same (Call.fingerprint_ne_carrying server.fresh)
    · have among : u ∈ tokens := by simpa [carried] using member
      exact ⟨u, among, (Call.fingerprint_carrying_eq_iff (sending.data u among) token).1 same⟩
  · rintro ⟨u, among, alike⟩
    refine ⟨some u, by simpa [carried] using among, ?_⟩
    exact (Call.fingerprint_carrying_eq_iff (sending.data u among) token).2 alike

theorem Sending.goOn (server : TokenServer execute call tokenField queryArg answer)
    (sending : Sending call tokenField queryArg answer tokens t)
    (held : tokenOf? tokenField (answer tokens.getLast?) = some v) (short : ¬ v.Overlong)
    (unseen : t.seen (asking call queryArg (some v)) = false) :
    Sending call tokenField queryArg answer (tokens ++ [v])
      (t.advance (answer tokens.getLast?) (asking call queryArg (some v))) := by
  have token : v.IsData := server.isData held
  have fresh : ∀ u ∈ tokens, ¬ u.Alike v := by
    intro u among alike
    rw [(sending.seen_iff server token).2 ⟨u, among, alike⟩] at unseen
    cases unseen
  exact {
    chain := by
      have before := sending.chain
      unfold Chain at before ⊢
      rw [carried_concat, List.isChain_append, getLast?_carried]
      refine ⟨before, .singleton _, ?_⟩
      rintro _ ⟨⟩ _ ⟨⟩
      exact held
    reached := List.forall_mem_append.2
      ⟨sending.reached, List.forall_mem_singleton.2 (.of_held sending.reached held)⟩
    data := List.forall_mem_append.2 ⟨sending.data, List.forall_mem_singleton.2 token⟩
    short := List.forall_mem_append.2 ⟨sending.short, List.forall_mem_singleton.2 short⟩
    apart := List.pairwise_append.2 ⟨sending.apart, List.pairwise_singleton _ _,
      fun u among _ last => List.mem_singleton.1 last ▸ fresh u among⟩
    current := by rw [List.getLast?_concat]; rfl
    calls := by rw [advance, sending.calls, carried_concat, List.map_append]; rfl
    pages := by
      rw [advance, sending.pages, List.getLast?_concat, carried_concat, List.map_append]
      rfl }

theorem Sending.asked (server : TokenServer execute call tokenField queryArg answer)
    (sending : Sending call tokenField queryArg answer tokens t)
    (answered : execute t.current w = (.page page, w')) :
    page = answer tokens.getLast? ∧
      (byToken tokenField queryArg t.history page t.current).result =
        .ok ((tokenOf? tokenField (answer tokens.getLast?)).map fun v =>
          asking call queryArg (some v)) := by
  obtain ⟨w'', served⟩ := server.serves tokens.getLast? w
  rw [sending.current, served] at answered
  cases answered
  obtain ⟨found, read⟩ := server.readable tokens.getLast?
  have next := nextByToken_eq (asking call queryArg tokens.getLast?) server.free read
  have same : (asking call queryArg tokens.getLast?).carrying queryArg =
      fun v => asking call queryArg (some v) := funext fun _ => carrying_asking
  rw [same] at next
  rw [sending.current]
  exact ⟨rfl, next⟩

theorem Trail.sending (server : TokenServer execute call tokenField queryArg answer)
    (written : call.isWritable = true)
    (trail : Trail client execute endpoint (byToken tokenField queryArg) (context, call) w exchanges
      events t w') :
    ∃ tokens, Sending call tokenField queryArg answer tokens t := by
  induction trail with
  | start => exact ⟨[], .start context call⟩
  | goOn _ answered asked writable unseen ih =>
    obtain ⟨tokens, sending⟩ := ih
    obtain ⟨rfl, leads⟩ := sending.asked server answered
    rw [leads, Except.ok.injEq, Option.map_eq_some_iff] at asked
    obtain ⟨v, held, rfl⟩ := asked
    have short := (server.isWritable_asking written held).1 writable
    exact ⟨tokens ++ [v], sending.goOn server held short unseen⟩

/-- The traversal has come to its end with a page for the first call and for each of these tokens,
and with some warnings of a loop. -/
structure Returns (client : String) (call : Call) (queryArg : String)
    (answer : Option Value → Page) (context : Value) (tokens : List Value) (warnings : Nat)
    (o : Outcome σ Fetched) : Prop where
  calls : callsIn o.events = (carried tokens).map fun token => (client, asking call queryArg token)
  warned : o.events.countP Event.isLoopDetected = warnings
  returned : o.ending = .done ⟨context, (carried tokens).map answer⟩

/-- How a traversal ends that has sent these tokens. -/
inductive ChainEnded (client : String) (call : Call) (tokenField queryArg : String)
    (answer : Option Value → Page) (limit : Nat) (context : Value) (tokens : List Value)
    (o : Outcome σ Fetched) : Prop
  | absent (none : tokenOf? tokenField (answer tokens.getLast?) = none)
      (returns : Returns client call queryArg answer context tokens 0 o)
  | again {v : Value} (held : tokenOf? tokenField (answer tokens.getLast?) = some v)
      (before : ∃ u ∈ tokens, u.Alike v)
      (returns : Returns client call queryArg answer context tokens 1 o)
  | overlong {v : Value} (held : tokenOf? tokenField (answer tokens.getLast?) = some v)
      (long : v.Overlong)
      (calls : callsIn o.events =
        (carried tokens).map fun token => (client, asking call queryArg token))
      (unwarned : o.events.countP Event.isLoopDetected = 0)
      (failed : o.ending = .failed .unreadable)
  | exhausted (all : tokens.length = limit)
      (calls : callsIn o.events =
        ((carried tokens).take limit).map fun token => (client, asking call queryArg token))
      (unwarned : o.events.countP Event.isLoopDetected = 0) (ending : o.ending = .exhausted)

theorem Sending.shown_calls (sending : Sending call tokenField queryArg answer tokens t)
    (exchanged : t.calls = exchanges.map Exchange.call ++ [t.current])
    (shown : Shows client (byToken tokenField queryArg) context
      (exchanges ++ [⟨t.current, page⟩]) warnings events) :
    callsIn events = (carried tokens).map fun token => (client, asking call queryArg token) := by
  have named := congrArg (List.map fun c => (client, c)) (exchanged.symm.trans sending.calls)
  rw [shown.calls]
  simpa [Function.comp_def] using named

theorem shown_warnings
    (shown : Shows client (byToken tokenField queryArg) context exchanges warnings events) :
    events.countP Event.isLoopDetected = warnings := by
  rw [shown.loops, ownNotices_of_quiet fun _ _ _ => rfl]
  exact Nat.zero_add _

theorem Sending.returns (sending : Sending call tokenField queryArg answer tokens t)
    (exchanged : t.calls = exchanges.map Exchange.call ++ [t.current])
    (shown : Shows client (byToken tokenField queryArg) context
      (exchanges ++ [⟨t.current, answer tokens.getLast?⟩]) warnings o.events)
    (ending : o.ending = .done ⟨context, t.pages ++ [answer tokens.getLast?]⟩) :
    Returns client call queryArg answer context tokens warnings o where
  calls := sending.shown_calls exchanged shown
  warned := shown_warnings shown
  returned := by rw [ending, sending.pages]

theorem Arrives.sending (server : TokenServer execute call tokenField queryArg answer)
    (written : call.isWritable = true)
    (arrives : Arrives client execute endpoint (byToken tokenField queryArg) (context, call) w
      exchanges t page) :
    ∃ tokens, Sending call tokenField queryArg answer tokens t ∧ page = answer tokens.getLast? ∧
      t.calls = exchanges.map Exchange.call ++ [t.current] ∧
      (byToken tokenField queryArg t.history page t.current).result =
        .ok ((tokenOf? tokenField (answer tokens.getLast?)).map fun v =>
          asking call queryArg (some v)) := by
  obtain ⟨_, _, _, trail, answered⟩ := arrives
  obtain ⟨tokens, sending⟩ := trail.sending server written
  obtain ⟨same, leads⟩ := sending.asked server answered
  exact ⟨tokens, sending, same, trail.exchanged.calls, leads⟩

/-- The tokens that a traversal has sent, and how it has ended. -/
structure Followed (client : String) (call : Call) (tokenField queryArg : String)
    (answer : Option Value → Page) (limit : Nat) (context : Value) (tokens : List Value)
    (o : Outcome σ Fetched) : Prop where
  chain : Chain answer tokenField tokens
  reached : ∀ v ∈ tokens, Reachable answer tokenField v
  apart : tokens.Pairwise fun u v => ¬ u.Alike v
  short : ∀ v ∈ tokens, ¬ v.Overlong
  ended : ChainEnded client call tokenField queryArg answer limit context tokens o

theorem Ended.chain (server : TokenServer execute call tokenField queryArg answer)
    (written : call.isWritable = true)
    (ended : Ended client execute endpoint (byToken tokenField queryArg) limit (context, call) w
      o) :
    ∃ tokens, Followed client call tokenField queryArg answer limit context tokens o := by
  cases ended with
  | @exhausted exchanges _ _ _ trail all shown ending =>
    obtain ⟨tokens, sending⟩ := trail.sending server written
    have calls := trail.exchanged.calls.symm.trans sending.calls
    have length : tokens.length = limit := by
      have lengths := congrArg List.length calls
      simpa [carried, all] using lengths.symm
    have made : exchanges.map Exchange.call =
        ((carried tokens).take limit).map (asking call queryArg) := by
      rw [List.map_take, ← calls, List.take_left' (by simpa using all)]
    have named := congrArg (List.map fun c => (client, c)) made
    refine ⟨tokens, sending.chain, sending.reached, sending.apart, sending.short,
      .exhausted length ?_ (shown_warnings shown) ending⟩
    rw [shown.calls]
    simpa [Function.comp_def] using named
  | last arrives asked shown ending =>
    obtain ⟨tokens, sending, rfl, calls, leads⟩ := arrives.sending server written
    rw [leads, Except.ok.injEq, Option.map_eq_none_iff] at asked
    exact ⟨tokens, sending.chain, sending.reached, sending.apart, sending.short,
      .absent asked (sending.returns calls shown ending)⟩
  | repeated arrives asked seen shown ending =>
    obtain ⟨tokens, sending, rfl, calls, leads⟩ := arrives.sending server written
    rw [leads, Except.ok.injEq, Option.map_eq_some_iff] at asked
    obtain ⟨v, held, rfl⟩ := asked
    have before := (sending.seen_iff server (server.isData held)).1 seen
    exact ⟨tokens, sending.chain, sending.reached, sending.apart, sending.short,
      .again held before (sending.returns calls shown ending)⟩
  | failed arrives failed =>
    obtain ⟨tokens, -, -, -, leads⟩ := arrives.sending server written
    rw [leads] at failed
    cases failed
  | unwritable arrives asked unwritable shown ending =>
    obtain ⟨tokens, sending, rfl, calls, leads⟩ := arrives.sending server written
    rw [leads, Except.ok.injEq, Option.map_eq_some_iff] at asked
    obtain ⟨v, held, rfl⟩ := asked
    have long : v.Overlong := by
      by_contra short
      rw [(server.isWritable_asking written held).2 short] at unwritable
      cases unwritable
    exact ⟨tokens, sending.chain, sending.reached, sending.apart, sending.short,
      .overlong held long (sending.shown_calls calls shown) (shown_warnings shown) ending⟩

/-- All tokens to which the first page leads are alike to one of these. -/
def Known (answer : Option Value → Page) (tokenField : String) (known : List Value) : Prop :=
  ∀ v, Reachable answer tokenField v → ∃ u ∈ known, u.IsData ∧ v.Alike u

theorem leadsWithin_of_known (server : TokenServer execute call tokenField queryArg answer)
    (written : call.isWritable = true) {known : List Value} (all : Known answer tokenField known) :
    LeadsWithin client execute endpoint (byToken tokenField queryArg) (context, call) w
      (known.map fun u => (asking call queryArg (some u)).fingerprint).toFinset := by
  intro exchanges t page arrives next leads
  obtain ⟨tokens, sending, -, -, asked⟩ := arrives.sending server written
  rw [asked, Except.ok.injEq, Option.map_eq_some_iff] at leads
  obtain ⟨v, held, rfl⟩ := leads
  obtain ⟨u, among, data, alike⟩ := all v (.of_held sending.reached held)
  have same : (asking call queryArg (some u)).fingerprint =
      (asking call queryArg (some v)).fingerprint :=
    ((Call.fingerprint_carrying_eq_iff (server.isData held) data).2 alike).symm
  exact List.mem_toFinset.2 (List.mem_map.2 ⟨u, among, same⟩)

theorem ended_of_server (server : TokenServer execute call tokenField queryArg answer)
    (written : call.isWritable = true) (client : String) (endpoint : Value) (limit : Nat)
    (bound : Fields) (w : σ) :
    Ended client execute endpoint (byToken tokenField queryArg) limit (.obj bound, call) w
      (fetch client execute endpoint (byToken tokenField queryArg) limit (.obj bound, call) w) := by
  obtain ⟨names, opened⟩ := opening_obj bound written
  refine fetch_ended limit opened fun _ _ t w' trail => ?_
  obtain ⟨tokens, sending⟩ := trail.sending server written
  obtain ⟨w'', served⟩ := server.serves tokens.getLast? w'
  exact ⟨_, w'', sending.current ▸ served⟩

/-- Pagination by token follows the chain of tokens: after the first call, the calls carry the
tokens that the pages hold, each the one of the page before and no two of them alike, until a page
holds none or one that was sent before, and only the latter is warned of. A first call or a token
with an integer of too many digits breaks the traversal before it is sent. If all tokens are among
finitely many, there is at most one call more than there are tokens. -/
theorem fetch_follows_tokens (server : TokenServer execute call tokenField queryArg answer)
    (client : String) (endpoint : Value) (limit : Nat) (bound : Fields) (w : σ) :
    let o := fetch client execute endpoint (byToken tokenField queryArg) limit (.obj bound, call) w
    (call.data.Overlong → o = ⟨w, [], .failed .unreadable⟩) ∧
    (¬ call.data.Overlong → ∃ tokens,
      Followed client call tokenField queryArg answer limit (.obj bound) tokens o) ∧
    ∀ known, Known answer tokenField known → known.length < limit →
      (callsIn o.events).length ≤ known.length + 1 ∧
      (¬ call.data.Overlong → (∀ v, Reachable answer tokenField v → ¬ v.Overlong) →
        ∃ fetched, o.ending = .done fetched) := by
  intro o
  by_cases long : call.data.Overlong
  · have unwritten : call.isWritable = false :=
      Bool.eq_false_of_not_eq_true fun written => Call.isWritable_iff_not_overlong.1 written long
    have fault : opening (.obj bound, call) = .error .unreadable := by simp [opening, unwritten]
    have whole : o = ⟨w, [], .failed .unreadable⟩ := fetch_of_fault fault w
    rw [whole]
    exact ⟨fun _ => rfl, fun short => absurd long short,
      fun known _ _ => ⟨Nat.zero_le _, fun short => absurd long short⟩⟩
  · have written := Call.isWritable_iff_not_overlong.2 long
    have ended := ended_of_server server written client endpoint limit bound w
    have followed := ended.chain server written
    refine ⟨fun other => absurd other long, fun _ => followed, fun known all few => ?_⟩
    obtain ⟨calls, wanting⟩ := ended.within (leadsWithin_of_known server written all)
    have card := (Finset.card_insert_le call.fingerprint
      (known.map fun u => (asking call queryArg (some u)).fingerprint).toFinset).trans
        (Nat.succ_le_succ (List.toFinset_card_le _))
    rw [List.length_map] at card
    refine ⟨calls.trans card, fun _ each => ?_⟩
    obtain ⟨tokens, followed⟩ := followed
    cases followed.ended with
    | absent _ returns => exact ⟨_, returns.returned⟩
    | again _ _ returns => exact ⟨_, returns.returned⟩
    | overlong held long => exact absurd long (each _ (.of_held followed.reached held))
    | exhausted _ _ _ exhausted =>
      have more := wanting exhausted
      dsimp only at more
      omega

theorem Followed.returns
    (followed : Followed client call tokenField queryArg answer limit context tokens o)
    (held : tokenOf? tokenField (answer tokens.getLast?) = some v) (short : ¬ v.Overlong)
    (few : tokens.length < limit) :
    (∃ u ∈ tokens, u.Alike v) ∧ Returns client call queryArg answer context tokens 1 o := by
  cases followed.ended with
  | absent none =>
    rw [held] at none
    cases none
  | again other before returns =>
    cases held.symm.trans other
    exact ⟨before, returns⟩
  | overlong other long =>
    cases held.symm.trans other
    exact absurd long short
  | exhausted all => omega

theorem Followed.comes_round {round : List Value}
    (followed : Followed client call tokenField queryArg answer limit context tokens o)
    (chain : Chain answer tokenField round) (apart : round.Pairwise fun u v => ¬ u.Alike v)
    (each : ∀ u ∈ round, ¬ u.Overlong)
    (held : tokenOf? tokenField (answer round.getLast?) = some v) (short : ¬ v.Overlong)
    (back : ∃ u ∈ round, u.Alike v) (enough : round.length < limit) :
    tokens = round ∧ Returns client call queryArg answer context round 1 o := by
  have same : tokens = round := by
    rcases followed.chain.prefix_or_prefix chain with ⟨rest, same⟩ | ⟨rest, same⟩
    · cases rest with
      | nil => rw [← same, List.append_nil]
      | cons x rest =>
        -- the traversal would have ended with a token that no other one is alike to
        subst same
        have few : tokens.length < limit := lt_of_le_of_lt (by simp) enough
        obtain ⟨u, among, alike⟩ := (followed.returns chain.next (each x (by simp)) few).1
        exact absurd alike ((List.pairwise_append.1 apart).2.2 u among x (by simp))
    · cases rest with
      | nil => rw [← same, List.append_nil]
      | cons x rest =>
        -- the token that comes again would have been sent a second time
        have sent := followed.chain
        have differ := followed.apart
        rw [← same] at sent differ
        cases held.symm.trans sent.next
        obtain ⟨u, among, alike⟩ := back
        exact absurd alike ((List.pairwise_append.1 differ).2.2 u among v (by simp))
  subst same
  exact ⟨rfl, (followed.returns held short enough).2⟩

def comingRound : Option Value → Value
  | none => .int 0
  | some (.int _) => .bool false
  | some (.bool _) => .arr []
  | some (.arr _) => .obj [("a", .null), ("b", .str "")]
  | some _ => .obj [("b", .str ""), ("a", .null)]

def roundTokens : List Value :=
  [.int 0, .bool false, .arr [], .obj [("a", .null), ("b", .str "")]]

def leading (next : Option Value → Value) (token : Option Value) : Page :=
  ⟨.obj [("next", next token)], 200, []⟩

def leader (next : Option Value → Value) : Client Nat := fun call n =>
  (.page (leading next (Members.get? call.queryArgs "after")), n + 1)

theorem lookup_leading (next : Option Value → Value) (token : Option Value) :
    Value.lookup (leading next token).data "next" = .ok (some (next token)) := by
  have parts : Value.splitPath "next" = ["next"] := by decide +kernel
  simp [Value.lookup, parts, Value.follow, Value.child, leading, Members.get?]

theorem leader_serves {next : Option Value → Value} (data : ∀ token, (next token).IsData) :
    TokenServer (leader next) (plainCall "/a") "next" "after" (leading next) where
  free := by decide
  fresh := rfl
  serves token w := by
    refine ⟨w + 1, ?_⟩
    cases token with
    | none => rfl
    | some v => simp [leader, asking, Call.get?_carrying]
  readable token := ⟨_, lookup_leading next token⟩
  data token := .obj (by simp [Members.keys]) (by simp [data token])

theorem comingRound_data (token : Option Value) : (comingRound token).IsData := by
  unfold comingRound
  split
  · exact .int 0
  · exact .bool false
  · exact .arr nofun
  · exact .obj (by decide) (by simp [Value.IsData.null, Value.IsData.str])
  · exact .obj (by decide) (by simp [Value.IsData.null, Value.IsData.str])

theorem not_overlong_comingRound (token : Option Value) : ¬ (comingRound token).Overlong := by
  rw [← Value.isWritable_eq_true_iff]
  unfold comingRound
  split <;> decide +kernel

theorem tokenOf?_comingRound (token : Option Value) :
    tokenOf? "next" (leading comingRound token) = some (comingRound token) := by
  refine tokenOf?_eq_some.2 ⟨lookup_leading _ _, ?_⟩
  unfold comingRound
  split <;> simp

theorem roundTokens_chain : Chain (leading comingRound) "next" roundTokens := by
  simp [Chain, carried, roundTokens, tokenOf?_comingRound, comingRound]

theorem roundTokens_apart : roundTokens.Pairwise fun u v => ¬ u.Alike v := by
  simp only [roundTokens, List.pairwise_cons, List.forall_mem_cons]
  exact ⟨⟨nofun, nofun, nofun, nofun⟩, ⟨nofun, nofun, nofun⟩, ⟨nofun, nofun⟩, nofun, .nil⟩

theorem comingRound_of_mem {u : Value} (member : u ∈ roundTokens) :
    ∃ token, u = comingRound token := by
  simp only [roundTokens, List.mem_cons, List.not_mem_nil, or_false] at member
  rcases member with rfl | rfl | rfl | rfl
  · exact ⟨none, rfl⟩
  · exact ⟨some (.int 0), rfl⟩
  · exact ⟨some (.bool false), rfl⟩
  · exact ⟨some (.arr []), rfl⟩

theorem roundTokens_back : ∃ u ∈ roundTokens, u.Alike (comingRound roundTokens.getLast?) :=
  ⟨comingRound (some (.arr [])), by simp [roundTokens, comingRound],
    (Value.alike_iff_canonical_eq (comingRound_data _) (comingRound_data _)).2 rfl⟩

theorem not_overlong_plainCall : ¬ (plainCall "/a").data.Overlong :=
  Call.isWritable_iff_not_overlong.1 (by decide +kernel)

theorem round_followed :
    let o := fetch "main" (leader comingRound) .null (byToken "next" "after") 9
      (.obj [], plainCall "/a") 0
    TokenServer (leader comingRound) (plainCall "/a") "next" "after" (leading comingRound) ∧
    ¬ (plainCall "/a").data.Overlong ∧
    Followed "main" (plainCall "/a") "next" "after" (leading comingRound) 9 (.obj []) roundTokens
      o ∧
    Returns "main" (plainCall "/a") "after" (leading comingRound) (.obj []) roundTokens 1 o := by
  intro o
  have server := leader_serves comingRound_data
  obtain ⟨-, follows, -⟩ := fetch_follows_tokens server "main" .null 9 [] 0
  obtain ⟨tokens, followed⟩ := follows not_overlong_plainCall
  have each : ∀ u ∈ roundTokens, ¬ u.Overlong := by
    intro u member
    obtain ⟨token, rfl⟩ := comingRound_of_mem member
    exact not_overlong_comingRound token
  obtain ⟨rfl, returns⟩ := followed.comes_round roundTokens_chain roundTokens_apart each
    (tokenOf?_comingRound _) (not_overlong_comingRound _) roundTokens_back (by decide)
  exact ⟨server, not_overlong_plainCall, followed, returns⟩

theorem tokenOf?_leading {next : Option Value → Value} {token : Option Value}
    (nonnull : next token ≠ .null) (nonempty : next token ≠ .str "") :
    tokenOf? "next" (leading next token) = some (next token) :=
  tokenOf?_eq_some.2 ⟨lookup_leading next token, nonnull, nonempty⟩

def zeros (token : Option Value) : Value :=
  (Decimal.Double.ofDecimal? token.isSome 0 0).elim .null .double

theorem zeros_eq (token : Option Value) : zeros token = .double ⟨token.isSome, 0⟩ := rfl

theorem leader_zeros_serves :
    TokenServer (leader zeros) (plainCall "/a") "next" "after" (leading zeros) :=
  leader_serves fun _ => .double _

theorem tokenOf?_zeros (token : Option Value) :
    tokenOf? "next" (leading zeros token) = some (zeros token) :=
  tokenOf?_leading (by simp [zeros_eq]) (by simp [zeros_eq])

theorem zeros_sent {limit : Nat} (enough : 2 < limit) :
    Returns "main" (plainCall "/a") "after" (leading zeros) (.obj [])
      [.double ⟨false, 0⟩, .double ⟨true, 0⟩] 1
      (fetch "main" (leader zeros) .null (byToken "next" "after") limit
        (.obj [], plainCall "/a") 0) := by
  have written := Call.isWritable_iff_not_overlong.2 not_overlong_plainCall
  obtain ⟨tokens, followed⟩ := (ended_of_server leader_zeros_serves written "main" .null limit []
    0).chain leader_zeros_serves written
  have held := tokenOf?_zeros [Value.double ⟨false, 0⟩, .double ⟨true, 0⟩].getLast?
  have back : ∃ u ∈ [Value.double ⟨false, 0⟩, .double ⟨true, 0⟩], u.Alike (.double ⟨true, 0⟩) :=
    ⟨.double ⟨true, 0⟩, by simp, .double _⟩
  have single : ∀ d, ¬ (Value.double d).Overlong := nofun
  refine (followed.comes_round ?chain ?apart ?each held (single _) back enough).2
  case chain => simp [Chain, carried, tokenOf?_zeros, zeros_eq]
  case apart =>
    simp only [List.pairwise_cons, List.forall_mem_cons]
    exact ⟨⟨nofun, nofun⟩, nofun, .nil⟩
  case each => simp [single]

theorem Followed.breaks
    (followed : Followed client call tokenField queryArg answer limit context tokens o)
    (held : tokenOf? tokenField (answer none) = some v) (long : v.Overlong) (allowed : 0 < limit) :
    callsIn o.events = [(client, call)] ∧ o.ending = .failed .unreadable := by
  have sent : tokens = [] := by
    cases tokens with
    | nil => rfl
    | cons u rest =>
      have chain : Chain answer tokenField ([] ++ u :: rest) := followed.chain
      cases held.symm.trans chain.next
      exact absurd long (followed.short v (List.mem_cons_self ..))
  subst sent
  cases followed.ended with
  | absent none => cases held.symm.trans none
  | again _ before =>
    obtain ⟨_, member, _⟩ := before
    cases member
  | overlong _ _ calls _ failed => exact ⟨calls, failed⟩
  | exhausted all => exact absurd all.symm (Nat.ne_of_gt allowed)

/-- A token of too many digits is not sent, and two zeros are, though they are equal as numbers. -/
theorem tokens_left_and_doubled :
    (TokenServer (leader fun _ => Value.unwritten) (plainCall "/a") "next" "after"
        (leading fun _ => Value.unwritten) ∧
      tokenOf? "next" (leading (fun _ => Value.unwritten) none) = some Value.unwritten ∧
      let o := fetch "main" (leader fun _ => Value.unwritten) .null (byToken "next" "after") 9
        (.obj [], plainCall "/a") 0
      callsIn o.events = [("main", plainCall "/a")] ∧ o.ending = .failed .unreadable) ∧
    TokenServer (leader zeros) (plainCall "/a") "next" "after" (leading zeros) ∧
    Returns "main" (plainCall "/a") "after" (leading zeros) (.obj [])
      [.double ⟨false, 0⟩, .double ⟨true, 0⟩] 1
      (fetch "main" (leader zeros) .null (byToken "next" "after") 9
        (.obj [], plainCall "/a") 0) := by
  refine ⟨?_, leader_zeros_serves, zeros_sent (by decide)⟩
  have server : TokenServer (leader fun _ => Value.unwritten) (plainCall "/a") "next" "after"
      (leading fun _ => Value.unwritten) := leader_serves fun _ => .int _
  have held : tokenOf? "next" (leading (fun _ => Value.unwritten) none) = some Value.unwritten :=
    tokenOf?_leading nofun nofun
  have written := Call.isWritable_iff_not_overlong.2 not_overlong_plainCall
  obtain ⟨tokens, followed⟩ :=
    (ended_of_server server written "main" .null 9 [] 0).chain server written
  exact ⟨server, held, followed.breaks held Value.overlong_unwritten (by decide)⟩

end Traversal

end Harvest
