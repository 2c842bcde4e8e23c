import Harvest.Proofs.Carried
import Harvest.Proofs.Layers

namespace Harvest

namespace Members

variable {α : Type} {ms : List (String × α)} {name key : String} {v w : α}

theorem put_comm (present : has ms name = true) (apart : key ≠ name) :
    put (put ms key w) name v = put (put ms name v) key w := by
  induction ms with
  | nil => cases present
  | cons m rest ih =>
    obtain ⟨k, u⟩ := m
    by_cases here : k = name
    · subst here
      simp [put, Ne.symm apart]
    · have later : has rest name = true := by simpa [has, get?, here] using present
      by_cases there : k = key
      · subst there
        simp [put, apart]
      · simp [put, here, there, ih later]

theorem nodup_keys_put (distinct : (keys ms).Nodup) (key : String) (v : α) :
    (keys (put ms key v)).Nodup := by
  rw [keys_put]
  split
  · exact distinct
  next absent =>
    refine List.nodup_append.2 ⟨distinct, List.nodup_singleton key, fun name inside other last => ?_⟩
    obtain rfl := List.mem_singleton.1 last
    rintro rfl
    exact absent (has_iff.2 inside)

end Members

namespace Config

variable {a b c lower upper : Fields} {name : String} {v : Value}

/-- Every name stands once and there is no null, in this object and in those inside it. -/
inductive Tidy : Fields → Prop where
  | mk {members : Fields} (distinct : (Members.keys members).Nodup)
    (given : ∀ m ∈ members, m.2.isNull = false)
    (inner : ∀ m ∈ members, ∀ ms, m.2 = .obj ms → Tidy ms) : Tidy members

theorem Tidy.nil : Tidy [] :=
  .mk .nil nofun nofun

theorem Tidy.nodup {members : Fields} : Tidy members → (Members.keys members).Nodup
  | .mk distinct _ _ => distinct

theorem Tidy.get? {members : Fields} (tidy : Tidy members)
    (found : Members.get? members name = some v) :
    v.isNull = false ∧ ∀ ms, v = .obj ms → Tidy ms := by
  have member := Members.mem_of_get? found
  cases tidy with
  | mk distinct given inner => exact ⟨given _ member, inner _ member⟩

theorem Tidy.membersUnder {members : Fields} (tidy : Tidy members) (name : String) :
    Tidy (membersUnder members name) := by
  unfold Config.membersUnder
  split
  next ms found => exact (tidy.get? found).2 ms rfl
  next => exact .nil

theorem Tidy.put {members : Fields} (tidy : Tidy members) (given : v.isNull = false)
    (inner : ∀ ms, v = .obj ms → Tidy ms) : Tidy (Members.put members name v) := by
  obtain ⟨distinct, others, within⟩ := tidy
  refine .mk (Members.nodup_keys_put distinct name v) (fun m member => ?_)
    (fun m member ms same => ?_)
  · rcases Members.mem_put member with rfl | before
    · exact given
    · exact others m before
  · rcases Members.mem_put member with rfl | before
    · exact inner ms same
    · exact within m before ms same

theorem Tidy.overlay (tidy : Tidy lower) (upper : Fields) : Tidy (overlay lower upper) := by
  suffices all : ∀ v : Value, ∀ lower, Tidy lower → Tidy (Config.overlay lower v.fields) from
    all (.obj upper) lower tidy
  intro v
  induction v using Value.parts_induction with
  | obj members ih =>
    change ∀ lower, Tidy lower → Tidy (Config.overlay lower members)
    induction members with
    | nil => exact fun _ tidy => tidy
    | cons m rest others =>
      obtain ⟨name, w⟩ := m
      obtain ⟨here, later⟩ := List.forall_mem_cons.1 ih
      refine fun lower tidy => others later _ ?_
      cases w with
      | null => exact tidy
      | obj inner => exact tidy.put rfl (by rintro ms ⟨⟩; exact here _ (tidy.membersUnder name))
      | _ => exact tidy.put rfl nofun
  | _ => exact fun _ tidy => tidy

theorem membersUnder_eq (members : Fields) (name : String) :
    membersUnder members name = objectIn (Members.get? members name) := by
  unfold membersUnder objectIn
  cases Members.get? members name with
  | none => rfl
  | some v => cases v <;> rfl

theorem overlayMember_eq_put (given : v.isNull = false) :
    overlayMember lower name v =
      Members.put lower name (laidOver (Members.get? lower name) v) := by
  cases v with
  | null => cases given
  | obj members => rw [overlayMember, membersUnder_eq, laidOver]
  | _ => rfl

theorem overlayMember_put (present : Members.has lower name = true) {w : Value} {key : String}
    (apart : key ≠ name) : overlayMember (Members.put lower name v) key w =
      Members.put (overlayMember lower key w) name v := by
  have same : Members.get? (Members.put lower name v) key = Members.get? lower key :=
    Members.get?_put_of_ne lower v apart
  cases null : w.isNull with
  | true =>
    cases w with
    | null => rfl
    | _ => cases null
  | false =>
    rw [overlayMember_eq_put null, overlayMember_eq_put null, same, Members.put_comm present apart]

theorem overlay_put (absent : name ∉ Members.keys upper) (present : Members.has lower name = true) :
    overlay (Members.put lower name v) upper = Members.put (overlay lower upper) name v := by
  induction upper generalizing lower with
  | nil => rfl
  | cons m rest ih =>
    obtain ⟨key, w⟩ := m
    obtain ⟨apart, absent⟩ := not_or.1 (mt List.mem_cons.2 absent)
    rw [overlay, overlay, overlayMember_put present (Ne.symm apart)]
    refine ih absent ?_
    rw [Members.has, get?_overlayMember_of_ne w apart]
    exact present

theorem overlay_of_put (tidy : Tidy b) (given : v.isNull = false) :
    overlay a (Members.put b name v) =
      Members.put (overlay a b) name (laidOver (Members.get? a name) v) := by
  induction b generalizing a with
  | nil => exact overlayMember_eq_put given
  | cons m rest ih =>
    obtain ⟨key, w⟩ := m
    obtain ⟨distinct, others, inner⟩ := tidy
    obtain ⟨fresh, distinct⟩ := List.nodup_cons.1 distinct
    obtain ⟨here, others⟩ := List.forall_mem_cons.1 others
    by_cases same : key = name
    · subst same
      have written : Members.has (Members.put a key (laidOver (Members.get? a key) w)) key = true := by
        simp [Members.has]
      rw [Members.put, if_pos rfl, overlay, overlay, overlayMember_eq_put given,
        overlayMember_eq_put here, ← overlay_put fresh written, Members.put_put]
    · have tidy : Tidy rest := .mk distinct others fun m member => inner m (.tail _ member)
      rw [Members.put, if_neg same, overlay, overlay, ih tidy,
        get?_overlayMember_of_ne w (Ne.symm same)]

def Staged (a b : Fields) (name : String) (v : Value) : Prop :=
  ∀ inner, v = .obj inner → overlay (membersUnder a name) (overlay (membersUnder b name) inner) =
    overlay (membersUnder (overlay a b) name) inner

theorem overlay_overlayMember (tidy : Tidy b) (staged : Staged a b name v) :
    overlay a (overlayMember b name v) = overlayMember (overlay a b) name v := by
  cases v with
  | null => rfl
  | obj inner =>
    rw [overlayMember, overlay_of_put tidy rfl, overlayMember, ← staged inner rfl, laidOver,
      ← membersUnder_eq]
  | _ => exact overlay_of_put tidy rfl

theorem overlay_overlay_of_staged (distinct : (Members.keys c).Nodup) (tidy : Tidy b)
    (each : ∀ m ∈ c, Staged a b m.1 m.2) :
    overlay a (overlay b c) = overlay (overlay a b) c := by
  induction c generalizing b with
  | nil => rfl
  | cons m rest ih =>
    obtain ⟨key, v⟩ := m
    obtain ⟨fresh, distinct⟩ := List.nodup_cons.1 distinct
    obtain ⟨here, later⟩ := List.forall_mem_cons.1 each
    have step := overlay_overlayMember tidy here
    have tidy' : Tidy (overlayMember b key v) := tidy.overlay [(key, v)]
    rw [overlay, overlay, ← step]
    refine ih distinct tidy' fun m member => ?_
    -- the other names are as they were
    have apart : m.1 ≠ key := fun same => fresh (List.mem_map.2 ⟨m, member, same⟩)
    have below : Members.get? (overlayMember b key v) m.1 = Members.get? b m.1 :=
      get?_overlayMember_of_ne v apart
    have through : Members.get? (overlayMember (overlay a b) key v) m.1 =
        Members.get? (overlay a b) m.1 := get?_overlayMember_of_ne v apart
    intro inner object
    rw [step, membersUnder_eq _ m.1, membersUnder_eq _ m.1, membersUnder_eq _ m.1, below, through,
      ← membersUnder_eq, ← membersUnder_eq, ← membersUnder_eq]
    exact later m member inner object

/-- At some path, the lowest and the highest layer hold an object and the one between them a value
that is none. -/
def Clashes (a b c : Fields) : Prop :=
  ∃ path w, (∃ x, (Value.obj a).reach path = some (.obj x)) ∧
    (Value.obj b).reach path = some w ∧ w.isNull = false ∧ w.isObject = false ∧
    ∃ z, (Value.obj c).reach path = some (.obj z)

theorem reach_cons {members : Fields} {rest : List String}
    (found : Members.get? members name = some v) :
    (Value.obj members).reach (name :: rest) = v.reach rest := by
  rw [Value.reach, found, Option.bind_some]

theorem exists_of_reach_cons {members : Fields} {rest : List String} {w : Value}
    (reached : (Value.obj members).reach (name :: rest) = some w) :
    ∃ v, Members.get? members name = some v ∧ v.reach rest = some w :=
  Option.bind_eq_some_iff.1 reached

theorem exists_obj_of_reach {path : List String} {x : Fields}
    (reached : v.reach path = some (.obj x)) : ∃ members, v = .obj members := by
  cases v with
  | obj members => exact ⟨members, rfl⟩
  | _ => cases path <;> cases reached

theorem clashes_iff : Clashes a b c ↔ ∃ name x w z, Members.get? a name = some (.obj x) ∧
    Members.get? b name = some w ∧ Members.get? c name = some (.obj z) ∧ w.isNull = false ∧
    (w.isObject = true → Clashes x w.fields z) := by
  constructor
  · rintro ⟨path, w, ⟨x, below⟩, between, given, leaf, z, above⟩
    cases path with
    | nil =>
      obtain rfl := Option.some.inj between
      cases leaf
    | cons name rest =>
      obtain ⟨u, lower, below⟩ := exists_of_reach_cons below
      obtain ⟨v, middle, between⟩ := exists_of_reach_cons between
      obtain ⟨t, upper, above⟩ := exists_of_reach_cons above
      obtain ⟨x', rfl⟩ := exists_obj_of_reach below
      obtain ⟨z', rfl⟩ := exists_obj_of_reach above
      refine ⟨name, x', v, z', lower, middle, upper, ?_, fun object => ?_⟩
      · cases v with
        | null =>
          cases rest <;> cases between
          cases given
        | _ => rfl
      · cases v with
        | obj y => exact ⟨rest, w, ⟨x, below⟩, between, given, leaf, z, above⟩
        | _ => cases object
  · rintro ⟨name, x, w, z, below, between, above, given, deeper⟩
    cases object : w.isObject with
    | false =>
      exact ⟨[name], w, ⟨x, reach_cons below⟩, reach_cons between, given, object, z,
        reach_cons above⟩
    | true =>
      obtain ⟨path, u, ⟨x', lower⟩, middle, some_value, leaf, z', upper⟩ := deeper object
      cases w with
      | obj y =>
        exact ⟨name :: path, u, ⟨x', (reach_cons below).trans lower⟩,
          (reach_cons between).trans middle, some_value, leaf, z', (reach_cons above).trans upper⟩
      | _ => cases object

theorem not_clashes_nil_left : ¬ Clashes [] b c := by
  intro clashes
  obtain ⟨name, _, _, _, below, -⟩ := clashes_iff.1 clashes
  cases below

theorem not_clashes_nil : ¬ Clashes a [] c := by
  intro clashes
  obtain ⟨name, _, _, _, -, between, -⟩ := clashes_iff.1 clashes
  cases between

theorem membersUnder_cases (members : Fields) (name : String) :
    Members.get? members name = some (.obj (membersUnder members name)) ∨
      membersUnder members name = [] := by
  unfold membersUnder
  split
  next ms found => exact .inl found
  next => exact .inr rfl

theorem objectIn_of_not_isObject (leaf : v.isObject = false) : objectIn (some v) = [] := by
  cases v with
  | obj => cases leaf
  | _ => rfl

theorem membersUnder_overlay (tidy : Tidy b) (found : Members.get? b name = some v) :
    membersUnder (overlay a b) name = objectIn (some (laidOver (Members.get? a name) v)) := by
  rw [membersUnder_eq, get?_overlay_laidOver tidy.nodup, found]
  simp [Option.filter, (tidy.get? found).1]

theorem staged_of_not_clashes (tidy : Tidy b) {inner : Fields}
    (above : Members.get? c name = some (.obj inner)) (free : ¬ Clashes a b c)
    (ih : ∀ x y, Tidy y → ¬ Clashes x y inner →
      overlay x (overlay y inner) = overlay (overlay x y) inner) :
    overlay (membersUnder a name) (overlay (membersUnder b name) inner) =
      overlay (membersUnder (overlay a b) name) inner := by
  cases found : Members.get? b name with
  | none =>
    have through : Members.get? (overlay a b) name = Members.get? a name := by
      rw [get?_overlay_laidOver tidy.nodup, found]
      rfl
    rw [membersUnder_eq (overlay a b), through, ← membersUnder_eq, membersUnder_eq b, found]
    exact ih _ [] .nil not_clashes_nil
  | some v =>
    rw [membersUnder_overlay tidy found, membersUnder_eq b, found]
    cases object : v.isObject with
    | true =>
      cases v with
      | obj y =>
        rw [laidOver, ← membersUnder_eq]
        refine ih _ y ((tidy.get? found).2 y rfl) fun clashes => ?_
        rcases membersUnder_cases a name with below | none
        · exact free (clashes_iff.2 ⟨name, _, _, _, below, found, above, rfl, fun _ => clashes⟩)
        · rw [none] at clashes
          exact not_clashes_nil_left clashes
      | _ => cases object
    | false =>
      -- nothing may stand below, and nothing below the value would come out
      have none : membersUnder a name = [] := by
        rcases membersUnder_cases a name with below | none
        · refine absurd (clashes_iff.2 ⟨name, _, v, inner, below, found, above,
            (tidy.get? found).1, fun other => ?_⟩) free
          simp [object] at other
        · exact none
      have hidden : laidOver (Members.get? a name) v = v := by
        cases v with
        | obj => cases object
        | _ => rfl
      rw [none, hidden, objectIn_of_not_isObject object]
      exact ih [] [] .nil not_clashes_nil

theorem overlay_overlay (tidy : Tidy b) (plain : (Value.obj c).isPlain = true)
    (free : ¬ Clashes a b c) : overlay a (overlay b c) = overlay (overlay a b) c := by
  suffices all : ∀ v : Value, v.isPlain = true → ∀ a b, Tidy b → ¬ Clashes a b v.fields →
      overlay a (overlay b v.fields) = overlay (overlay a b) v.fields from
    all (.obj c) plain a b tidy free
  intro v
  induction v using Value.parts_induction with
  | obj members ih =>
    intro plain a b tidy free
    have distinct := Value.nodup_of_isPlain plain
    refine overlay_overlay_of_staged distinct tidy fun m member inner object => ?_
    have found : Members.get? members m.1 = some (.obj inner) :=
      (Members.get?_eq_some_iff distinct).2 (object ▸ member)
    refine staged_of_not_clashes tidy found free fun x y tidy free => ?_
    have within := ih m member
    rw [object] at within
    exact within (Value.isPlain_of_get? plain found) x y tidy free
  | _ => exact fun _ _ _ _ _ => rfl

theorem tidy_flatten (layers : List Fields) : Tidy (flatten layers) := by
  induction layers using List.reverseRecOn with
  | nil => exact .nil
  | append_singleton layers upper ih =>
    rw [flatten_concat]
    exact ih.overlay upper

theorem overlay_flatten_singleton (plain : (Value.obj b).isPlain = true) :
    overlay a (flatten [b]) = overlay a b :=
  overlay_overlay .nil plain not_clashes_nil

theorem flatten_flatten {layers : List Fields}
    (plain : ∀ layer ∈ layers, (Value.obj layer).isPlain = true) :
    flatten [flatten layers] = flatten layers := by
  induction layers using List.reverseRecOn with
  | nil => rfl
  | append_singleton layers upper ih =>
    obtain ⟨below, here⟩ := List.forall_mem_append.1 plain
    rw [flatten_concat]
    refine (overlay_overlay (tidy_flatten layers) (here _ (by simp)) not_clashes_nil_left).trans ?_
    exact congrArg (overlay · upper) (ih below)

theorem decided_singleton {path : List String} (plain : (Value.obj a).isPlain = true)
    (reached : decided path [a] = some v) :
    ∃ w, (Value.obj a).reach path = some w ∧ w.isObject = v.isObject ∧
      (w.isObject = false → w = v) := by
  induction path generalizing a with
  | nil =>
    obtain rfl := Option.some.inj reached
    exact ⟨_, rfl, rfl, nofun⟩
  | cons name rest ih =>
    rw [decided] at reached
    cases found : Members.get? a name with
    | none => simp [said, found] at reached
    | some w =>
      cases null : w.isNull with
      | true => simp [said, found, null, Option.filter] at reached
      | false =>
        have alone : said [a] name = [w] := by simp [said, found, null, Option.filter]
        rw [alone] at reached
        cases object : w.isObject with
        | true =>
          cases w with
          | obj ms =>
            have atop : objectsAtop [.obj ms] = [ms] := objectsAtop_concat_obj [] ms
            rw [List.getLast?_singleton, Option.bind_some, if_pos object, atop] at reached
            rw [reach_cons found]
            exact ih (Value.isPlain_of_get? plain found) reached
          | _ => cases object
        | false =>
          cases rest with
          | nil => exact ⟨w, by simp [Value.reach, found], by simp_all [Value.reach]⟩
          | cons other rest => simp [object, Value.reach_of_not_isObject object] at reached

theorem Clashes.of_flatten (lower : (Value.obj a).isPlain = true)
    (middle : (Value.obj b).isPlain = true) (clashes : Clashes (flatten [a]) (flatten [b]) c) :
    Clashes a b c := by
  obtain ⟨path, w, ⟨x, below⟩, between, given, leaf, above⟩ := clashes
  rw [reach_flatten path (List.forall_mem_singleton.2 lower)] at below
  rw [reach_flatten path (List.forall_mem_singleton.2 middle)] at between
  obtain ⟨u, reached, object, -⟩ := decided_singleton lower below
  obtain ⟨v, reached', other, same⟩ := decided_singleton middle between
  obtain rfl := same (other.trans leaf)
  refine ⟨path, v, ?_, reached', given, leaf, above⟩
  cases u with
  | obj x => exact ⟨x, reached⟩
  | _ => cases object

theorem flatten_lower (upper : List Fields) {layers : List Fields}
    (plain : ∀ layer ∈ layers, (Value.obj layer).isPlain = true) :
    flatten (flatten layers :: upper) = flatten (layers ++ upper) := by
  have split : flatten (layers ++ upper) = upper.foldl overlay (flatten layers) := by
    simp [flatten]
  rw [split]
  exact congrArg (upper.foldl overlay) (flatten_flatten plain)

theorem flatten_upper {upper : List Fields} (lower : (Value.obj a).isPlain = true)
    (middle : (Value.obj b).isPlain = true) (plain : (Value.obj c).isPlain = true)
    (free : ¬ Clashes a b c) :
    flatten (a :: flatten [b, c] :: upper) = flatten (a :: b :: c :: upper) := by
  have staged : overlay (flatten [a]) (flatten [b, c]) = flatten [a, b, c] := by
    have apart : ¬ Clashes (flatten [a]) (flatten [b]) c := mt (.of_flatten lower middle) free
    refine (overlay_overlay (tidy_flatten [b]) plain apart).trans ?_
    rw [overlay_flatten_singleton middle]
    rfl
  exact congrArg (upper.foldl overlay) staged

end Config

end Harvest
