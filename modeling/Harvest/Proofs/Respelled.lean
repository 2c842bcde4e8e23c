import Harvest.Proofs.Acceptance
import Harvest.Proofs.Plan

namespace Harvest

namespace Value

mutual

/-- Data without records; every name stands once. -/
def isPlain : Value → Bool
  | arr items => arePlain items
  | obj members => decide (Members.keys members).Nodup && arePlainMembers members
  | record _ _ _ => false
  | _ => true

def arePlain : List Value → Bool
  | [] => true
  | v :: rest => isPlain v && arePlain rest

def arePlainMembers : List (String × Value) → Bool
  | [] => true
  | (_, v) :: rest => isPlain v && arePlainMembers rest

end

mutual

theorem given_of_isPlain : ∀ v : Value, v.isPlain = true → given v = v
  | .null, _ | .bool _, _ | .int _, _ | .double _, _ | .str _, _ | .hook _, _ => rfl
  | .arr items, h => by simp [given, givenItems_of_arePlain items (by simpa [isPlain] using h)]
  | .obj members, h => by
    simp only [isPlain, Bool.and_eq_true] at h
    simp [given, givenMembers_of_arePlain members h.2]

theorem givenItems_of_arePlain : ∀ items : List Value, arePlain items = true →
    givenItems items = items
  | [], _ => rfl
  | v :: rest, h => by
    simp only [arePlain, Bool.and_eq_true] at h
    simp [givenItems, given_of_isPlain v h.1, givenItems_of_arePlain rest h.2]

theorem givenMembers_of_arePlain : ∀ members : List (String × Value),
    arePlainMembers members = true → givenMembers members = members
  | [], _ => rfl
  | (_, v) :: rest, h => by
    simp only [arePlainMembers, Bool.and_eq_true] at h
    simp [givenMembers, given_of_isPlain v h.1, givenMembers_of_arePlain rest h.2]

end

variable {v : Value} {members : Fields} {name : String}

theorem isPlain_obj_iff : (obj members).isPlain = true ↔
    (Members.keys members).Nodup ∧ ∀ m ∈ members, m.2.isPlain = true := by
  have every : arePlainMembers members = true ↔ ∀ m ∈ members, m.2.isPlain = true := by
    induction members with
    | nil => simp [arePlainMembers]
    | cons m rest ih => simp [arePlainMembers, ih]
  rw [isPlain, Bool.and_eq_true, decide_eq_true_eq, every]

theorem nodup_of_isPlain (plain : (obj members).isPlain = true) :
    (Members.keys members).Nodup :=
  (isPlain_obj_iff.1 plain).1

theorem isPlain_of_get? (plain : (obj members).isPlain = true)
    (found : Members.get? members name = some v) : v.isPlain = true :=
  (isPlain_obj_iff.1 plain).2 _ (Members.mem_of_get? found)

def isLeaf : Value → Bool
  | null | obj _ => false
  | _ => true

end Value

namespace Config

namespace Checked

variable {α β : Type} {a b : Checked α}

def Agree (a b : Checked α) : Prop :=
  ∀ x, a = .ok x ↔ b = .ok x

theorem Agree.refl (a : Checked α) : a.Agree a :=
  fun _ => Iff.rfl

theorem Agree.map (f : α → β) (agree : a.Agree b) : (f <$> a).Agree (f <$> b) := by
  intro x
  simp only [map_eq_ok, agree _]

theorem Agree.seq {f g : Checked (α → β)} (first : f.Agree g) (second : a.Agree b) :
    (f <*> a).Agree (g <*> b) := by
  intro x
  simp only [seq_eq_ok, first _, second _]

theorem seqLeft_eq_ok {c : Checked β} {x : α} : a <* c = .ok x ↔ a = .ok x ∧ c.Accepted := by
  cases a <;> cases c <;> simp [SeqLeft.seqLeft, apply, map]

theorem agree_of_ok {x : α} (left : a = .ok x) (right : b = .ok x) : a.Agree b := by
  rw [left, right]
  exact .refl _

end Checked

open Checked (Agree)

def Alike (R : String → Value → Value → Prop) (a b : Fields) : Prop :=
  ∀ name, Option.Rel (R name) (Members.get? a name) (Members.get? b name)

def AlikeAtop (R : String → Value → Value → Prop) (name : String) (v w : Value) : Prop :=
  ∀ lower, Option.Rel (R name) (Members.get? (overlayMember lower name v) name)
    (Members.get? (overlayMember lower name w) name)

variable {α : Type} {R : String → Value → Value → Prop} {a b lower : Fields} {name : String}
  {v w : Value}

theorem rel_refl {β : Type} {S : β → β → Prop} (refl : ∀ x, S x x) (found : Option β) :
    Option.Rel S found found := by
  cases found with
  | none => exact .none
  | some x => exact .some (refl x)

theorem alikeAtop_refl (refl : ∀ name v, R name v v) : AlikeAtop R name v v :=
  fun _ => rel_refl (refl name) _

theorem get?_overlayMember_leaf (leaf : v.isLeaf = true) :
    Members.get? (overlayMember lower name v) name = some v := by
  cases v with
  | null | obj => cases leaf
  | _ => exact Members.get?_put_self lower name _

theorem alikeAtop_leaf (left : v.isLeaf = true) (right : w.isLeaf = true) (alike : R name v w) :
    AlikeAtop R name v w := by
  intro lower
  rw [get?_overlayMember_leaf left, get?_overlayMember_leaf right]
  exact .some alike

theorem alikeAtop_obj (alike : ∀ lower, R name (.obj (overlay lower a)) (.obj (overlay lower b))) :
    AlikeAtop R name (.obj a) (.obj b) := by
  intro lower
  simp only [overlayMember, Members.get?_put_self]
  exact .some (alike _)

theorem rel_overlay_of_atop (refl : ∀ name v, R name v v) (left : (Members.keys a).Nodup)
    (right : (Members.keys b).Nodup)
    (atop : Option.Rel (AlikeAtop R name) (Members.get? a name) (Members.get? b name))
    (lower : Fields) : Option.Rel (R name) (Members.get? (overlay lower a) name)
      (Members.get? (overlay lower b) name) := by
  rw [get?_overlay left, get?_overlay right]
  generalize Members.get? a name = v at atop ⊢
  generalize Members.get? b name = w at atop ⊢
  cases atop with
  | none => exact rel_refl (refl name) _
  | some atop => exact atop lower

theorem Alike.overlay (refl : ∀ name v, R name v v) (left : (Members.keys a).Nodup)
    (right : (Members.keys b).Nodup) (members : Alike (AlikeAtop R) a b) (lower : Fields) :
    Alike R (overlay lower a) (overlay lower b) :=
  fun name => rel_overlay_of_atop refl left right (members name) lower

theorem Alike.has (alike : Alike R a b) (name : String) : Members.has a name = Members.has b name :=
  (isSome_of_rel (alike name)).symm

theorem Alike.known (alike : Alike R a b) (names : List String) :
    (∀ m ∈ a, m.1 ∈ names) ↔ ∀ m ∈ b, m.1 ∈ names := by
  have keys : ∀ ms : Fields, (∀ m ∈ ms, m.1 ∈ names) ↔
      ∀ name, Members.has ms name = true → name ∈ names := by
    intro ms
    simp only [Members.has_iff, Members.keys, List.forall_mem_map]
  simp only [keys, alike.has]

namespace Field

variable {read : Value → Checked α} {default : α} {S : Value → Value → Prop}

theorem agree_optional (reads : ∀ v w, S v w → (read v).Agree (read w))
    (alike : Option.Rel S (Members.get? a name) (Members.get? b name)) :
    (optional a name default read).Agree (optional b name default read) := by
  unfold optional
  generalize Members.get? a name = v at alike ⊢
  generalize Members.get? b name = w at alike ⊢
  cases alike with
  | none => exact .refl _
  | some same =>
    intro x
    simp only [Checked.under_eq_ok, reads _ _ same _]

theorem agree_required (reads : ∀ v w, S v w → (read v).Agree (read w))
    (alike : Option.Rel S (Members.get? a name) (Members.get? b name)) :
    (required a name read).Agree (required b name read) := by
  unfold required
  generalize Members.get? a name = v at alike ⊢
  generalize Members.get? b name = w at alike ⊢
  cases alike with
  | none => exact fun _ => iff_of_false nofun nofun
  | some same =>
    intro x
    simp only [Checked.under_eq_ok, reads _ _ same _]

theorem agree_of_eq (v w : Value) (same : v = w) : (read v).Agree (read w) :=
  same ▸ .refl _

end Field

theorem known_overlay {names : List String} {upper : Fields} (known : ∀ m ∈ upper, m.1 ∈ names) :
    (∀ m ∈ overlay lower upper, m.1 ∈ names) ↔ ∀ m ∈ lower, m.1 ∈ names := by
  constructor
  · intro all m member
    have kept : m.1 ∈ Members.keys (overlay lower upper) :=
      mem_keys_overlay (List.mem_map_of_mem member)
    obtain ⟨n, inside, same⟩ := List.mem_map.1 kept
    exact same ▸ all n inside
  · intro below
    exact overlay_all (P := fun name _ => name ∈ names) (fun _ _ _ same => same) below known

theorem get?_givenParts (kind : Kind) (names : List String) (ms : Fields) (name : String) :
    Members.get? (Value.givenParts kind names ms) name =
      if names.contains name then (Members.get? ms name).map fun v => kind.cut name v.given
      else none := by
  induction ms with
  | nil => simp [Value.givenParts, Members.get?]
  | cons m rest ih =>
    obtain ⟨k, v⟩ := m
    by_cases here : k = name
    · subst here
      rw [Value.givenParts]
      split
      next => simp [Members.get?]
      next other => rw [ih, if_neg other]
    · rw [Members.get?, if_neg here, ← ih, Value.givenParts]
      split
      · rw [Members.get?, if_neg here]
      · rfl

theorem keys_givenParts (kind : Kind) (names : List String) (ms : Fields) :
    Members.keys (Value.givenParts kind names ms) = (Members.keys ms).filter names.contains := by
  induction ms with
  | nil => rfl
  | cons m rest ih =>
    obtain ⟨k, v⟩ := m
    change _ = List.filter _ (k :: Members.keys rest)
    rw [Value.givenParts, List.filter_cons]
    by_cases kept : names.contains k = true
    · rw [if_pos kept, if_pos kept]
      exact congrArg (k :: ·) ih
    · rw [if_neg kept, if_neg kept]
      exact ih

namespace Given

variable {kind : Kind} {build : Fields → Checked α} {write : α → Fields} {ms : Fields} {g : Given α}

theorem readClosed_obj : readClosed kind build (.obj ms) = .ok g ↔
    (build ms = .ok g.value ∧ ∀ m ∈ ms, m.1 ∈ kind.memberNames) ∧
      g = ⟨g.value, kind, [], kind.memberNames.filter (Members.has ms)⟩ := by
  have whole : ∀ x, build ms <* Field.only kind.memberNames ms = .ok x ↔
      build ms = .ok x ∧ ∀ m ∈ ms, m.1 ∈ kind.memberNames := by
    intro x
    rw [Checked.seqLeft_eq_ok, Field.accepted_only]
  constructor
  · intro h
    obtain ⟨x, read, rfl⟩ := Checked.map_eq_ok.1 h
    exact ⟨(whole x).1 read, rfl⟩
  · rintro ⟨read, same⟩
    exact Checked.map_eq_ok.2 ⟨g.value, (whole _).2 read, same.symm⟩

theorem agree_readClosed (built : (build a).Agree (build b)) (alike : Alike R a b) :
    (readClosed kind build (.obj a)).Agree (readClosed kind build (.obj b)) := by
  have same : Members.has a = Members.has b := funext alike.has
  intro g
  rw [readClosed_obj, readClosed_obj, built g.value, alike.known, same]

end Given

/-- A kind of record that can be written back: what is written for a member is read as the member
was, over any layer. -/
structure Writes (kind : Kind) (build : Fields → Checked α) (write : α → Fields)
    (R : String → Value → Value → Prop) : Prop where
  distinct : kind.memberNames.Nodup
  refl : ∀ name v, R name v v
  reads : ∀ a b, Alike R a b → (build a).Agree (build b)
  names : ∀ a, Members.keys (write a) = kind.memberNames
  written : ∀ ms a, (Value.obj ms).isPlain = true → build ms = .ok a →
    ∀ name ∈ kind.memberNames, ∀ v, Members.get? ms name = some v →
      ∃ w, Members.get? (write a) name = some w ∧ AlikeAtop R name v (kind.cut name w.given)

namespace Writes

variable {kind : Kind} {build : Fields → Checked α} {write : α → Fields} {ms : Fields} {g : Given α}

theorem alike_given (writes : Writes kind build write R) (plain : (Value.obj ms).isPlain = true)
    (read : Given.readClosed kind build (.obj ms) = .ok g) :
    Alike (AlikeAtop R) ms (g.given write) := by
  obtain ⟨⟨built, known⟩, same⟩ := Given.readClosed_obj.1 read
  intro name
  rw [same, Given.given, Given.members, List.append_nil, get?_givenParts]
  cases found : Members.get? ms name with
  | none =>
    have absent : ¬ ((kind.memberNames.filter (Members.has ms)).contains name = true) := by
      simp [Members.has, found]
    rw [if_neg absent]
    exact .none
  | some v =>
    have member : name ∈ kind.memberNames := known _ (Members.mem_of_get? found)
    have present : (kind.memberNames.filter (Members.has ms)).contains name = true := by
      simp [Members.has, found, member]
    obtain ⟨w, there, atop⟩ := writes.written ms g.value plain built name member v found
    rw [if_pos present, there]
    exact .some atop

theorem keys_given (writes : Writes kind build write R)
    (read : Given.readClosed kind build (.obj ms) = .ok g) :
    Members.keys (g.given write) = kind.memberNames.filter (Members.has ms) := by
  obtain ⟨-, same⟩ := Given.readClosed_obj.1 read
  rw [same, Given.given, Given.members, List.append_nil, keys_givenParts, writes.names]
  refine List.filter_congr fun name member => ?_
  simp [member]

theorem nodup_given (writes : Writes kind build write R)
    (read : Given.readClosed kind build (.obj ms) = .ok g) :
    (Members.keys (g.given write)).Nodup :=
  writes.keys_given read ▸ writes.distinct.filter _

theorem given_known (writes : Writes kind build write R)
    (read : Given.readClosed kind build (.obj ms) = .ok g) :
    ∀ m ∈ g.given write, m.1 ∈ kind.memberNames := by
  intro m member
  have inside : m.1 ∈ Members.keys (g.given write) := List.mem_map_of_mem member
  rw [writes.keys_given read] at inside
  exact List.mem_of_mem_filter inside

theorem agree_given (writes : Writes kind build write R) (plain : (Value.obj ms).isPlain = true)
    (read : Given.readClosed kind build (.obj ms) = .ok g) (lower : Fields) :
    (Given.readClosed kind build (.obj (overlay lower ms))).Agree
      (Given.readClosed kind build (.obj (overlay lower (g.given write)))) := by
  have alike := (writes.alike_given plain read).overlay writes.refl (Value.nodup_of_isPlain plain)
    (writes.nodup_given read) lower
  exact Given.agree_readClosed (writes.reads _ _ alike) alike

theorem cut_record (writes : Writes kind build write R)
    (read : Given.readClosed kind build (.obj ms) = .ok g) {outer : Kind}
    (held : outer.memberKind? name = some kind) :
    outer.cut name (g.record write).given = .obj (g.given write) := by
  have all : (g.given write).filter (fun m => kind.memberNames.contains m.1) = g.given write :=
    List.filter_eq_self.2 fun m member => by simpa using writes.given_known read m member
  rw [Kind.cut, held]
  exact congrArg Value.obj all

theorem read_record (writes : Writes kind build write R)
    (read : Given.readClosed kind build (.obj ms) = .ok g)
    (rebuilt : build (write g.value) = .ok g.value) :
    Given.readClosed kind build (g.record write) = .ok g := by
  obtain ⟨-, same⟩ := Given.readClosed_obj.1 read
  have known : ∀ m ∈ write g.value, m.1 ∈ kind.memberNames := by
    intro m member
    rw [← writes.names g.value]
    exact List.mem_map_of_mem member
  have own : (write g.value).filter (fun m => kind.memberNames.contains m.1) = write g.value :=
    List.filter_eq_self.2 fun m member => by simpa using known m member
  have none : (write g.value).filter (fun m => !kind.memberNames.contains m.1) = [] :=
    List.filter_eq_nil_iff.2 fun m member => by simpa using known m member
  have narrows : kind.narrows kind = true := by cases kind <;> rfl
  have whole : build (write g.value) <* Field.only kind.memberNames (write g.value) =
      .ok g.value := Checked.seqLeft_eq_ok.2 ⟨rebuilt, Field.accepted_only.2 known⟩
  rw [same]
  simp only [Given.record, Given.members, Given.readClosed, Given.read, List.append_nil, narrows,
    if_true, own, none, whole]
  rfl

end Writes

end Config

end Harvest
