import Mathlib
import Harvest.Proofs.Derailed
import Harvest.Proofs.Escaped
import Harvest.Proofs.Overlay
import Harvest.Proofs.Sorting

namespace Harvest

namespace Members

variable {α : Type} {ms upper : List (String × α)}

theorem has_put (key other : String) (value : α) :
    has (put ms key value) other = (has ms other || other == key) := by
  rw [Bool.eq_iff_iff, has_iff, keys_put]
  split <;> by_cases same : other = key <;> simp_all [has_iff]

theorem keys_putAll (distinct : (keys upper).Nodup) :
    keys (putAll ms upper) = keys ms ++ (keys upper).filter fun key => ! has ms key := by
  induction upper generalizing ms with
  | nil => simp [keys]
  | cons m rest ih =>
    obtain ⟨name, value⟩ := m
    obtain ⟨fresh, distinct⟩ := List.nodup_cons.1 distinct
    have later : (keys rest).filter (fun key => ! has (put ms name value) key) =
        (keys rest).filter fun key => ! has ms key := by
      refine List.filter_congr fun key member => ?_
      have other : (key == name) = false := by
        rw [beq_eq_false_iff_ne]
        rintro rfl
        exact fresh member
      rw [has_put, other, Bool.or_false]
    have first : keys ((name, value) :: rest) = name :: keys rest := rfl
    rw [putAll_cons, ih distinct, later, keys_put, first, List.filter_cons]
    cases has ms name <;> simp

theorem put_of_absent {key : String} (absent : key ∉ keys ms) (value : α) :
    put ms key value = ms ++ [(key, value)] := by
  induction ms with
  | nil => rfl
  | cons m rest ih =>
    obtain ⟨name, v⟩ := m
    obtain ⟨other, later⟩ := not_or.1 (mt List.mem_cons.2 absent)
    rw [put, if_neg (Ne.symm other), ih later, List.cons_append]

theorem putAll_of_nodup (distinct : (keys (ms ++ upper)).Nodup) :
    putAll ms upper = ms ++ upper := by
  induction upper generalizing ms with
  | nil => rw [putAll_nil, List.append_nil]
  | cons m rest ih =>
    obtain ⟨name, value⟩ := m
    have split : ms ++ (name, value) :: rest = (ms ++ [(name, value)]) ++ rest := by simp
    have absent : name ∉ keys ms := by
      rw [keys, List.map_append] at distinct
      exact fun inside => (List.nodup_append.1 distinct).2.2 name inside name (by simp) rfl
    rw [putAll_cons, put_of_absent absent, ih (split ▸ distinct), split]

end Members

/-- The next call is the current one with these query arguments over its own. -/
structure Call.Overridden (current : Call) (args : List (String × String)) (next : Call) :
    Prop where
  path : next.path = current.path
  method : next.method = current.method
  headers : next.headers = current.headers
  body : next.body = current.body
  names : Members.keys next.queryArgs = Members.keys current.queryArgs ++
    (Members.keys args).filter fun name => ! Members.has current.queryArgs name
  argument : ∀ name, Members.get? next.queryArgs name =
    ((Members.get? args name).map Value.str).or (Members.get? current.queryArgs name)

namespace Pagination

variable {current : Call} {args : List (String × String)} {text : String}

variable {allows : String → String → Except Failure Bool}

def followLink (allows : String → String → Except Failure Bool) (current : Call) (text : String) :
    Noted (Option Call) := do
  match Link.parse? text with
  | none => Noted.fail .unreadable
  | some link =>
    let next := followed current link
    if ← Noted.lift (allows current.path next.path) then return some next
    else
      Noted.note (.pathMismatch current.path next.path)
      return none

def nextByLinks (cursorField : Value) (allows : String → String → Except Failure Bool)
    (page : Page) (current : Call) : Noted (Option Call) := do
  match ← Noted.lift (valueAt page.data cursorField) with
  | .str text => if text == "" then return none else followLink allows current text
  | _ => return none

theorem nextByCursor_eq {cursorField : Value} {check : PathCheck} {page : Page} :
    nextByCursor cursorField check page current =
      nextByLinks cursorField check.allows page current :=
  rfl

theorem nextByLinks_of_parse {cursorField : String} {page : Page} {link : Link}
    (held : Value.lookup page.data cursorField = .ok (some (.str text)))
    (nonempty : text ≠ "") (parsed : Link.parse? text = some link)
    (allowed : allows current.path (followed current link).path = .ok true) :
    nextByLinks (.str cursorField) allows page current = pure (some (followed current link)) := by
  have given : (text == "") = false := beq_eq_false_iff_ne.2 nonempty
  have taken : followLink allows current text = pure (some (followed current link)) := by
    simp only [followLink, parsed, allowed]
    rfl
  simp only [nextByLinks, valueAt_of_lookup held]
  change (if text == "" then pure none else followLink allows current text) = _
  rw [given, taken]
  rfl

theorem nextByCursor_of_parse {cursorField : String} {page : Page} {link : Link}
    (held : Value.lookup page.data cursorField = .ok (some (.str text)))
    (nonempty : text ≠ "") (parsed : Link.parse? text = some link)
    (stays : Link.samePath current.path (followed current link).path = true) :
    nextByCursor (.str cursorField) .same page current = pure (some (followed current link)) :=
  nextByCursor_eq.trans (nextByLinks_of_parse held nonempty parsed (congrArg Except.ok stays))

theorem followed_overridden (distinct : (Members.keys args).Nodup) {path : String}
    (same : path = "" ∨ path = current.path) :
    current.Overridden args (followed current ⟨path, Link.writtenQuery args⟩) := by
  have read : Link.queryArguments (Link.writtenQuery args) = args := by
    have all : Members.putAll [] args = [] ++ args := Members.putAll_of_nodup distinct
    rw [Link.queryArguments, Link.queryPairs_writtenQuery, all, List.nil_append]
  have names : Members.keys (args.map fun a => (a.1, Value.str a.2)) = Members.keys args :=
    List.map_map
  have apart : (Members.keys (args.map fun a => (a.1, Value.str a.2))).Nodup := by
    rwa [names]
  refine ⟨?_, rfl, rfl, rfl, ?_, fun name => ?_⟩
  · rcases same with rfl | rfl <;> simp [followed]
  · simp only [followed, read]
    rw [Members.keys_putAll apart, names]
  · simp only [followed, read]
    rw [Members.get?_putAll apart, get?_map]

namespace Strategy

/-- Where the page holds a link that carries arguments to the current path, the next call is the
current one with exactly these arguments over its own, whatever characters are in them. -/
theorem cursor_delivers (args : List (String × String)) (distinct : (Members.keys args).Nodup)
    (current : Call) (history : History) (page : Page) (cursorField link : String)
    (held : Value.lookup page.data cursorField = .ok (some (.str link)))
    (carries : Link.Carries current.path args link) :
    ∃ next, (Strategy.cursor (.str cursorField) .same).next history page current =
      pure (some next) ∧ current.Overridden args next := by
  obtain ⟨path, parsed, same⟩ : ∃ path, Link.parse? link = some ⟨path, Link.writtenQuery args⟩ ∧
      (path = "" ∨ path = current.path) := by
    cases carries with
    | relative => exact ⟨"", Link.parse?_relativeLink, .inl rfl⟩
    | absolute named rooted plain =>
      exact ⟨current.path, Link.parse?_absoluteLink named rooted plain, .inr rfl⟩
  have overridden := followed_overridden distinct same
  have nonempty : link ≠ "" := by
    rintro rfl
    generalize blank : "" = link at carries
    cases carries <;> simp [Link.relativeLink, Link.absoluteLink, Link.beforeHost] at blank
  have stays : Link.samePath current.path
      (followed current ⟨path, Link.writtenQuery args⟩).path = true := by
    rw [overridden.path, Link.samePath_refl]
  exact ⟨_, nextByCursor_of_parse held nonempty parsed stays, overridden⟩

def opaqueArguments : List (String × String) :=
  [("a+b", "1/2&3=4%ü😀"), ("", "")]

def opaqueLink : String :=
  "https://api.host/items?a%2Bb=1%2F2%263%3D4%25%C3%BC%F0%9F%98%80&="

def itemsCall : Call :=
  ⟨"/items", .get, [("size", .int 9), ("a+b", .str "old")], [], .null⟩

theorem opaque_cursor_delivered :
    (Members.keys opaqueArguments).Nodup ∧
    Value.lookup (linking opaqueLink).data "next" = .ok (some (.str opaqueLink)) ∧
    Link.Carries itemsCall.path opaqueArguments opaqueLink ∧
    ∃ next, byLink.next ⟨.obj [], [itemsCall]⟩ (linking opaqueLink) itemsCall = pure (some next) ∧
      itemsCall.Overridden opaqueArguments next := by
  have distinct : (Members.keys opaqueArguments).Nodup := by decide
  have held : Value.lookup (linking opaqueLink).data "next" = .ok (some (.str opaqueLink)) := by
    cbv
  have written : opaqueLink = Link.absoluteLink ['a', 'p', 'i', '.', 'h', 'o', 's', 't']
      itemsCall.path opaqueArguments := by
    decide +kernel
  have carries : Link.Carries itemsCall.path opaqueArguments opaqueLink := by
    rw [written]
    refine .absolute ?_ ?_ ?_
    · simp [Char.isAlphanum, Char.isAlpha, Char.isLower]
    · rfl
    · simp [itemsCall]
  exact ⟨distinct, held, carries, cursor_delivers opaqueArguments distinct itemsCall _
    (linking opaqueLink) "next" opaqueLink held carries⟩

end Strategy

end Pagination

end Harvest
