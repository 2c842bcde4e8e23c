import Mathlib
import Harvest.Proofs.Declared
import Harvest.Proofs.Shape
import Harvest.Proofs.Trusted

namespace Harvest.Pagination

namespace StrategyType

def Named (type : StrategyType) (names : List String) : Prop :=
  (∀ name ∈ names, name ∈ type.requiredParams ++ type.optionalParams) ∧
    ∀ name ∈ type.requiredParams, name ∈ names

variable {type : StrategyType} {params : Fields} {strategy : Strategy}

theorem paramFault?_eq_none_iff :
    type.paramFault? params = none ↔ type.Named (Members.keys params) := by
  unfold paramFault?
  split
  next name found =>
    refine iff_of_false nofun fun named => ?_
    have known := named.1 name (List.mem_of_find?_eq_some found)
    have strange := List.find?_some found
    simp [known] at strange
  next all =>
    have known : ∀ name ∈ Members.keys params,
        name ∈ type.requiredParams ++ type.optionalParams := by
      intro name member
      have ordinary := List.find?_eq_none.1 all name member
      simpa [or_iff_not_imp_left] using ordinary
    have missing : type.requiredParams.filter (fun k => !Members.has params k) = [] ↔
        ∀ name ∈ type.requiredParams, name ∈ Members.keys params := by
      simp [List.filter_eq_nil_iff, ← Members.has_iff]
    rw [Named, ← missing, and_iff_right known]
    split <;> simp_all

theorem make_eq_ok : type.make params = .ok strategy ↔
    type.Named (Members.keys params) ∧ strategy = type.withParams params := by
  rw [← paramFault?_eq_none_iff, make]
  cases type.paramFault? params <;> simp [eq_comm]

end StrategyType

namespace Table

/-- An entry of a known type whose parameters have the right names. -/
def WellNamed (v : Value) : Prop :=
  ∃ entry type, Entry.read v = .ok entry ∧ StrategyType.ofName? entry.value.type = some type ∧
    type.Named (Members.keys entry.value.params)

variable {config v : Value} {id : String} {t : Table} {definition : Definition}

theorem exists_readDefinition_iff (id : String) :
    (∃ definition, readDefinition id v = .ok definition) ↔ WellNamed v := by
  constructor
  · rintro ⟨definition, read⟩
    obtain ⟨-, entry, type, entryRead, known, made, -⟩ := fits_of_readDefinition read
    exact ⟨entry, type, entryRead, known, (StrategyType.make_eq_ok.1 made).1⟩
  · rintro ⟨entry, type, entryRead, known, named⟩
    have made := StrategyType.make_eq_ok.2 ⟨named, rfl⟩
    simp only [readDefinition, entryRead, known, made]
    exact ⟨_, rfl⟩

theorem exists_read_iff : (∃ t, read config = .ok t) ↔ config.isLayer = true ∧
    noPagination ∉ Members.keys config.fields ∧ ∀ m ∈ config.fields, WellNamed m.2 := by
  constructor
  · rintro ⟨t, done⟩
    have layer : config.isLayer = true := by
      have asks := Registry.asks_table config
      rw [done] at asks
      cases asks with
      | read _ layer => exact layer
    obtain ⟨definitions, fits, unreserved, -⟩ := definitions_of_read done
    rw [Members.keys_eq_of_forall₂ (fits.imp fun _ _ both => both.1)] at unreserved
    refine ⟨layer, unreserved, fun m member => ?_⟩
    obtain ⟨i, found⟩ := List.mem_iff_getElem?.1 member
    obtain ⟨n, -, -, -, entry, type, entryRead, known, made, -⟩ := getElem?_of_forall₂ fits found
    exact ⟨entry, type, entryRead, known, (StrategyType.make_eq_ok.1 made).1⟩
  · rintro ⟨layer, unreserved, named⟩
    have members : config.overlayMembers = .ok config.fields :=
      Value.overlayMembers_eq_ok.2 ⟨layer, rfl⟩
    cases each : readDefinitions config.fields with
    | error fault =>
      obtain ⟨m, member, failed⟩ := mapM_eq_error each
      obtain ⟨definition, made⟩ := (exists_readDefinition_iff m.1).2 (named m member)
      rw [made] at failed
      cases failed
    | ok definitions =>
      have names : Members.keys definitions = Members.keys config.fields := by
        refine Members.keys_eq_of_forall₂ ((mapM_eq_ok.1 each).imp fun m n done => ?_)
        obtain ⟨definition, -, rfl⟩ := map_eq_ok.1 done
        rfl
      have free : Members.has definitions noPagination = false := by
        rw [Bool.eq_false_iff, ne_eq, Members.has_iff, names]
        exact unreserved
      simp only [read, members, each, ok_bind, ofDefinitions, free]
      exact ⟨_, rfl⟩

def isBracketless (c : Char) : Bool :=
  c != '[' && c != ']'

/-- What an entry makes of its strategy, and when that one takes every page: if its parameters are
sound and there are no links to follow. Characters that make a host that is none are not only
brackets; without any of them links may be followed. -/
structure Judged (v : Value) (strategy : Strategy) : Prop where
  made : ∃ entry type, Entry.read v = .ok entry ∧
    StrategyType.ofName? entry.value.type = some type ∧
    strategy = type.withParams entry.value.params
  bracketless : strategy.Trusted isBracketless ↔ strategy.Sound ∧ ¬ strategy.FollowsLinks
  unsuspected : strategy.Trusted (fun c => !Link.isSuspect c) ↔ strategy.Sound

theorem Fits.judged (fits : Fits id v definition) : Judged v definition.strategy := by
  obtain ⟨-, entry, type, entryRead, known, made, -⟩ := fits
  refine ⟨⟨entry, type, entryRead, known, (StrategyType.make_eq_ok.1 made).2⟩, ?_, ?_⟩
  · rw [Strategy.trusted_iff (by decide)]
    refine and_congr_right fun _ =>
      ⟨fun links follows => ?_, fun none follows => absurd follows none⟩
    -- the sign for "account of" hides a slash
    have suspect := links follows (Char.ofNat 0x2100) (by decide)
    revert suspect
    decide
  · rw [Strategy.trusted_iff (by decide)]
    exact and_iff_left fun _ c fits => by simpa using fits

/-- Reading a table checks the types of the entries and the names of their parameters, and reports
what is wrong with them. Whether a strategy takes every page depends on what stands under the names,
and that is not checked. -/
theorem read_checks_names (config : Value) :
    ((∃ t, read config = .ok t) ↔ config.isLayer = true ∧
      noPagination ∉ Members.keys config.fields ∧ ∀ m ∈ config.fields, WellNamed m.2) ∧
    (config.isLayer = true →
      (∃ t, read config = .ok t) ∨ ∃ fault, read config = .error (.definition fault)) ∧
    ∀ t, read config = .ok t → ∃ definitions,
      t.definitions = definitions ++ [(noPagination, .single)] ∧
      List.Forall₂ (fun m n => n.1 = m.1 ∧ Judged m.2 n.2.strategy) config.fields definitions := by
  refine ⟨exists_read_iff, fun layer => ?_, fun t done => ?_⟩
  · have asks := Registry.asks_table config
    revert asks
    generalize read config = result
    rintro (⟨t⟩ | ⟨fault⟩ | ⟨unfit⟩ | ⟨-, ⟨⟩⟩)
    · exact .inl ⟨t, rfl⟩
    · exact .inr ⟨fault, rfl⟩
    · exact absurd layer unfit
  · obtain ⟨definitions, fits, -, all⟩ := definitions_of_read done
    exact ⟨definitions, all, fits.imp fun _ _ both => ⟨both.1, both.2.judged⟩⟩

def byTokenAt (tokenField : Value) : Value :=
  .obj [("p", .obj [("type", .str "token"),
    ("params", .obj [("token_field", tokenField), ("query_arg", .str "t")])])]

theorem read_byTokenAt (tokenField : Value) : read (byTokenAt tokenField) =
    .ok ⟨[("p", ⟨"p", .token tokenField (.str "t"), []⟩), (noPagination, .single)]⟩ := by
  cbv

/-- The number in the place of a path is not found when the table is read, but on the first page. -/
theorem number_as_path_fails : ∃ t definition,
    read (byTokenAt (.int 5)) = .ok t ∧ ("p", definition) ∈ t.definitions ∧
    (Strategy.linking "t1").data.Plain isBracketless ∧ Strategy.firstCall.queryArgs = [] ∧
    ∀ history,
      (definition.strategy.next history (Strategy.linking "t1") Strategy.firstCall).result =
        .error .shapeless := by
  refine ⟨_, _, read_byTokenAt _, List.mem_cons_self, ?_, rfl, fun _ => rfl⟩
  refine .obj (by decide) (List.forall_mem_singleton.2 (.str ?_))
  simp [isBracketless]

theorem path_as_path_judged : ∃ t definitions,
    read (byTokenAt (.str "next")) = .ok t ∧
    t.definitions = definitions ++ [(noPagination, .single)] ∧
    List.Forall₂ (fun m n => n.1 = m.1 ∧ Judged m.2 n.2.strategy)
      (byTokenAt (.str "next")).fields definitions := by
  have done := read_byTokenAt (.str "next")
  obtain ⟨definitions, all, judged⟩ := (read_checks_names (byTokenAt (.str "next"))).2.2 _ done
  exact ⟨_, definitions, done, all, judged⟩

end Table

end Harvest.Pagination
