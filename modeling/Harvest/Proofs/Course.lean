import Mathlib
import Harvest.Proofs.Carried
import Harvest.Proofs.Endings

namespace Harvest

namespace Traversal

variable {σ : Type} {client : String} {execute : Client σ} {endpoint : Value}
  {continuation : Pagination.Continuation} {callAt : Nat → Call} {Fits : Nat → Page → Prop}
  {last allowed k : Nat} {context : Value} {t : Traversal} {page : Page} {w w' : σ}
  {exchanges : List Exchange} {events : List Event} {o : Outcome σ Fetched}

/-- These calls are to be made one after the other up to the last one, whatever has happened so far.
No call comes twice among them, and the pages that come fit them. -/
structure Course (execute : Client σ) (continuation : Pagination.Continuation) (callAt : Nat → Call)
    (Fits : Nat → Page → Prop) (last : Nat) : Prop where
  quiet : ∀ history page call, (continuation history page call).notices = []
  serves : ∀ k ≤ last, ∀ w, ∃ page w', execute (callAt k) w = (.page page, w') ∧ Fits k page
  goesOn : ∀ k < last, ∀ history page, Fits k page →
    (continuation history page (callAt k)).result = .ok (some (callAt (k + 1)))
  stops : ∀ history page, Fits last page →
    (continuation history page (callAt last)).result = .ok none
  apart : ∀ j k, j < k → (callAt j).fingerprint ≠ (callAt k).fingerprint

structure Completes (client : String) (callAt : Nat → Call) (Fits : Nat → Page → Prop) (last : Nat)
    (context : Value) (o : Outcome σ Fetched) : Prop where
  calls : callsIn o.events = (List.range (last + 1)).map fun k => (client, callAt k)
  returned : ∃ pages, o.ending = .done ⟨context, pages⟩ ∧ pages.length = last + 1 ∧
    ∀ k page, pages[k]? = some page → Fits k page
  unwarned : o.events.countP Event.isLoopDetected = 0

/-- The traversal has failed before the call with this number, which cannot be written. -/
structure Breaks (client : String) (callAt : Nat → Call) (k : Nat) (o : Outcome σ Fetched) :
    Prop where
  calls : callsIn o.events = (List.range k).map fun j => (client, callAt j)
  failed : o.ending = .failed .unreadable
  unwarned : o.events.countP Event.isLoopDetected = 0

/-- What holds after every page but the last. -/
structure On (callAt : Nat → Call) (Fits : Nat → Page → Prop) (last : Nat) (t : Traversal) :
    Prop where
  within : t.pages.length ≤ last
  current : t.current = callAt t.pages.length
  calls : t.calls = (List.range (t.pages.length + 1)).map callAt
  written : ∀ k ≤ t.pages.length, (callAt k).isWritable = true
  fits : ∀ k page, t.pages[k]? = some page → Fits k page

theorem On.start (context : Value) (written : (callAt 0).isWritable = true) :
    On callAt Fits last (.start context (callAt 0)) where
  within := Nat.zero_le _
  current := rfl
  calls := rfl
  written k none := by rwa [Nat.le_zero.1 none]
  fits k page found := by cases found

theorem fits_concat {pages : List Page}
    (before : ∀ k page, pages[k]? = some page → Fits k page) (here : Fits pages.length page) :
    ∀ k other, (pages ++ [page])[k]? = some other → Fits k other := by
  intro k other found
  rcases Nat.lt_trichotomy k pages.length with earlier | rfl | later
  · rw [List.getElem?_append_left earlier] at found
    exact before k other found
  · rw [List.getElem?_concat_length] at found
    cases found
    exact here
  · rw [List.getElem?_eq_none (by simpa using later)] at found
    cases found

theorem On.advance (on : On callAt Fits last t) (inside : t.pages.length < last)
    (fits : Fits t.pages.length page)
    (written : (callAt (t.pages.length + 1)).isWritable = true) :
    On callAt Fits last (t.advance page (callAt (t.pages.length + 1))) := by
  have length : (t.pages ++ [page]).length = t.pages.length + 1 := by simp
  exact {
    within := by
      rw [Traversal.advance, length]
      exact inside
    current := by rw [Traversal.advance, length]
    calls := by
      rw [Traversal.advance, length, on.calls, List.range_succ (n := t.pages.length + 1),
        List.map_append]
      rfl
    written := fun k below => by
      rw [Traversal.advance, length] at below
      rcases Nat.le_succ_iff.1 below with earlier | rfl
      · exact on.written k earlier
      · exact written
    fits := fits_concat on.fits fits }

inductive Asked (continuation : Pagination.Continuation) (callAt : Nat → Call) (last : Nat)
    (t : Traversal) (page : Page) : Prop where
  | last (all : t.pages.length = last)
      (asked : (continuation t.history page t.current).result = .ok none)
  | next (inside : t.pages.length < last)
      (asked : (continuation t.history page t.current).result =
        .ok (some (callAt (t.pages.length + 1))))

section

variable (course : Course execute continuation callAt Fits last)

include course

theorem On.asked (on : On callAt Fits last t) (answered : execute t.current w = (.page page, w')) :
    Fits t.pages.length page ∧ Asked continuation callAt last t page := by
  obtain ⟨served, w₂, answer, fits⟩ := course.serves t.pages.length on.within w
  rw [← on.current, answered] at answer
  cases answer
  refine ⟨fits, ?_⟩
  rcases Nat.lt_or_eq_of_le on.within with inside | all
  · refine .next inside ?_
    rw [on.current]
    exact course.goesOn _ inside _ _ fits
  · refine .last all ?_
    rw [on.current, all]
    exact course.stops _ _ (all ▸ fits)

theorem On.unseen (on : On callAt Fits last t) : t.seen (callAt (t.pages.length + 1)) = false := by
  rw [seen_eq_false, on.calls, List.map_map, List.mem_map]
  rintro ⟨j, among, same⟩
  exact course.apart j _ (List.mem_range.1 among) same

theorem Trail.on (begins : On callAt Fits last (.start context (callAt 0)))
    (trail : Trail client execute endpoint continuation (context, callAt 0) w exchanges events t
      w') :
    On callAt Fits last t := by
  induction trail with
  | start => exact begins
  | goOn _ answered asked written _ ih =>
    obtain ⟨fits, leads⟩ := ih.asked course answered
    cases leads with
    | last _ stopped =>
      rw [stopped] at asked
      cases asked
    | next inside continued =>
      rw [continued] at asked
      cases asked
      exact ih.advance inside fits written

theorem Arrives.on (begins : On callAt Fits last (.start context (callAt 0)))
    (arrives : Arrives client execute endpoint continuation (context, callAt 0) w exchanges t
      page) :
    On callAt Fits last t ∧ Fits t.pages.length page ∧ Asked continuation callAt last t page ∧
      (exchanges ++ [Exchange.mk t.current page]).map (fun x => (client, x.call)) =
        (List.range (t.pages.length + 1)).map fun k => (client, callAt k) := by
  obtain ⟨_, _, _, trail, answered⟩ := arrives
  have on := trail.on course begins
  obtain ⟨fits, leads⟩ := on.asked course answered
  have calls := congrArg (List.map (client, ·)) (trail.exchanged.calls.symm.trans on.calls)
  exact ⟨on, fits, leads, by simpa [Function.comp_def] using calls⟩

theorem Ended.follows (written : (callAt 0).isWritable = true) (enough : last < allowed)
    (ended : Ended client execute endpoint continuation allowed (context, callAt 0) w o) :
    (Completes client callAt Fits last context o ∧ ∀ k ≤ last, (callAt k).isWritable = true) ∨
    ∃ k ≤ last, (∀ j < k, (callAt j).isWritable = true) ∧ (callAt k).isWritable = false ∧
      Breaks client callAt k o := by
  have begins : On callAt Fits last (.start context (callAt 0)) := .start context written
  have silent {exchanges : List Exchange}
      (shown : Shows client continuation context exchanges 0 o.events) :
      o.events.countP Event.isLoopDetected = 0 := by
    rw [shown.loops, ownNotices_of_quiet course.quiet]
    rfl
  cases ended with
  | exhausted trail all =>
    have within := (trail.on course begins).within
    rw [trail.exchanged.pages, List.length_map, all] at within
    omega
  | last arrives asked shown ending =>
    obtain ⟨on, fits, leads, calls⟩ := arrives.on course begins
    cases leads with
    | last all =>
      rw [all] at calls
      refine .inl ⟨⟨shown.calls.trans calls, ⟨_, ending, by simp [all], fits_concat on.fits fits⟩,
        silent shown⟩, fun k below => on.written k (below.trans all.ge)⟩
    | next _ continued =>
      rw [continued] at asked
      cases asked
  | repeated arrives asked seen =>
    obtain ⟨on, -, leads, -⟩ := arrives.on course begins
    cases leads with
    | last _ stopped =>
      rw [stopped] at asked
      cases asked
    | next _ continued =>
      rw [continued] at asked
      cases asked
      rw [on.unseen course] at seen
      cases seen
  | failed arrives failed =>
    obtain ⟨-, -, leads, -⟩ := arrives.on course begins
    cases leads with
    | last _ stopped =>
      rw [stopped] at failed
      cases failed
    | next _ continued =>
      rw [continued] at failed
      cases failed
  | unwritable arrives asked unwritable shown ending =>
    obtain ⟨on, -, leads, calls⟩ := arrives.on course begins
    cases leads with
    | last _ stopped =>
      rw [stopped] at asked
      cases asked
    | next inside continued =>
      rw [continued] at asked
      cases asked
      exact .inr ⟨_, inside, fun j below => on.written j (Nat.le_of_lt_succ below), unwritable,
        shown.calls.trans calls, ending, silent shown⟩

/-- A traversal follows its course: it makes all calls if they can be written, and otherwise fails
before the first one that cannot. -/
theorem fetch_follows_course (enough : last < allowed) (client : String) (endpoint : Value)
    (bound : Fields) (w : σ) :
    ((∀ k ≤ last, (callAt k).isWritable = true) →
      Completes client callAt Fits last (.obj bound)
        (fetch client execute endpoint continuation allowed (.obj bound, callAt 0) w)) ∧
    ∀ k ≤ last, (∀ j < k, (callAt j).isWritable = true) → (callAt k).isWritable = false →
      Breaks client callAt k
        (fetch client execute endpoint continuation allowed (.obj bound, callAt 0) w) := by
  cases written : (callAt 0).isWritable with
  | false =>
    refine ⟨fun all => ?_, fun k _ before _ => ?_⟩
    · rw [all 0 (Nat.zero_le _)] at written
      cases written
    · have none : k = 0 := by
        by_contra some
        rw [before 0 (Nat.pos_of_ne_zero some)] at written
        cases written
      have fault : opening (.obj bound, callAt 0) = .error .unreadable := by
        simp [opening, written]
      rw [none, fetch_of_fault fault]
      exact ⟨rfl, rfl, rfl⟩
  | true =>
    obtain ⟨names, opened⟩ := opening_obj bound written
    have attended : Attended client execute endpoint continuation (.obj bound, callAt 0) w := by
      intro _ _ t w' trail
      have on := trail.on course (.start _ written)
      obtain ⟨page, w'', answered, -⟩ := course.serves _ on.within w'
      exact ⟨page, w'', on.current ▸ answered⟩
    rcases (fetch_ended allowed opened attended).follows course written enough with
      ⟨completes, all⟩ | ⟨first, inside, earlier, unwritable, breaks⟩
    · refine ⟨fun _ => completes, fun k below _ other => ?_⟩
      rw [all k below] at other
      cases other
    · refine ⟨fun all => ?_, fun k below before other => ?_⟩
      · rw [all first inside] at unwritable
        cases unwritable
      · -- both are the first one that cannot be written
        have same : k = first := by
          rcases Nat.lt_trichotomy k first with less | same | more
          · rw [earlier k less] at other
            cases other
          · exact same
          · rw [before first more] at unwritable
            cases unwritable
        exact same ▸ breaks

end

end Traversal

namespace Pagination

def counterOf (argument : String) (default : Value) (call : Call) : Except Failure Int :=
  argumentOr call.queryArgs (.str argument) default >>= integerOf

/-- The calls in which an argument counts on from where the first call is. -/
def counted (call : Call) (argument : String) (place : Nat → Int) : Nat → Call
  | 0 => call
  | k + 1 => call.carrying argument (.int (place (k + 1)))

variable {argument other : String} {default : Value} {call : Call} {place : Nat → Int}

theorem counterOf_of_get? {n : Int} (found : Members.get? call.queryArgs argument = some (.int n)) :
    counterOf argument default call = .ok n := by
  rw [counterOf, argumentOr_text, found]
  rfl

theorem counterOf_carrying (n : Int) :
    counterOf argument default (call.carrying argument (.int n)) = .ok n :=
  counterOf_of_get? Call.get?_carrying

theorem counterOf_carrying_of_ne (differ : other ≠ argument) (v : Value) :
    counterOf other default (call.carrying argument v) = counterOf other default call := by
  rw [counterOf, counterOf, argumentOr_text, argumentOr_text, Call.carrying,
    Members.get?_put_of_ne _ _ differ]

theorem carrying_counted (k : Nat) (v : Value) :
    (counted call argument place k).carrying argument v = call.carrying argument v := by
  cases k with
  | zero => rfl
  | succ k => exact Call.carrying_carrying

section

variable (first : counterOf argument default call = .ok (place 0))

include first

theorem counterOf_counted (k : Nat) :
    counterOf argument default (counted call argument place k) = .ok (place k) := by
  cases k with
  | zero => exact first
  | succ k => exact counterOf_carrying _

theorem counted_apart (rising : StrictMono place) {j k : Nat} (less : j < k) :
    (counted call argument place j).fingerprint ≠ (counted call argument place k).fingerprint := by
  intro same
  obtain ⟨k, rfl⟩ := Nat.exists_eq_add_one_of_ne_zero (Nat.ne_zero_of_lt less)
  -- a call with this fingerprint has this number, but the one of the earlier call is smaller
  have found := Call.queryArg_of_fingerprint_eq same Call.get?_carrying
  have number := (counterOf_counted first j).symm.trans (counterOf_of_get? found)
  exact (rising less).ne (Except.ok.inj number)

end

/-- The number has no more digits than can be written. -/
def Short (n : Int) : Prop :=
  n.natAbs < 10 ^ Text.digitLimit

theorem isWritable_counted (written : call.isWritable = true) (k : Nat) :
    (counted call argument place (k + 1)).isWritable = true ↔ Short (place (k + 1)) := by
  rw [counted, Call.isWritable_carrying written]
  exact Value.isWritable_full_int

end Pagination

namespace Traversal

open Pagination

variable {σ : Type} {execute : Client σ} {continuation : Continuation} {Fits : Nat → Page → Prop}
  {last allowed : Nat} {call : Call} {argument : String} {place : Nat → Int}

/-- Of calls that count on, the first one that cannot be written is the first call itself, or the
one with the first number of too many digits. -/
theorem fetch_counts
    (course : Course execute continuation (counted call argument place) Fits last)
    (enough : last < allowed) (client : String) (endpoint : Value) (bound : Fields) (w : σ) :
    (call.isWritable = true → (∀ k < last, Short (place (k + 1))) →
      Completes client (counted call argument place) Fits last (.obj bound)
        (fetch client execute endpoint continuation allowed (.obj bound, call) w)) ∧
    (call.isWritable = true → ∀ k < last, (∀ j < k, Short (place (j + 1))) →
      ¬ Short (place (k + 1)) → Breaks client (counted call argument place) (k + 1)
        (fetch client execute endpoint continuation allowed (.obj bound, call) w)) ∧
    (call.isWritable = false → Breaks client (counted call argument place) 0
      (fetch client execute endpoint continuation allowed (.obj bound, call) w)) := by
  obtain ⟨completes, breaks⟩ := fetch_follows_course course enough client endpoint bound w
  refine ⟨fun written short => completes fun k below => ?_, fun written k below short long =>
    breaks (k + 1) below (fun j before => ?_) ?_, breaks 0 (Nat.zero_le _) nofun⟩
  · cases k with
    | zero => exact written
    | succ k => exact (isWritable_counted written k).2 (short k below)
  · cases j with
    | zero => exact written
    | succ j => exact (isWritable_counted written j).2 (short j (Nat.lt_of_succ_lt_succ before))
  · rw [← Bool.not_eq_true, isWritable_counted written]
    exact long

end Traversal

end Harvest
