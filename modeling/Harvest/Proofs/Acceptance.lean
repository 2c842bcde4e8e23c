import Harvest.Endpoint
import Harvest.Proofs.Outcomes

namespace Harvest

namespace Config

namespace Checked

variable {α β : Type}

def Accepted (c : Checked α) : Prop :=
  ∃ a, c = .ok a

@[simp] theorem accepted_ok (a : α) : (ok a).Accepted :=
  ⟨a, rfl⟩

@[simp] theorem not_accepted_rejected (issues : List Issue) :
    ¬ (rejected issues : Checked α).Accepted := by
  rintro ⟨_, ⟨⟩⟩

@[simp] theorem accepted_map {f : α → β} {a : Checked α} : (map f a).Accepted ↔ a.Accepted := by
  cases a <;> simp [map]

@[simp] theorem accepted_fmap {f : α → β} {a : Checked α} : (f <$> a).Accepted ↔ a.Accepted :=
  accepted_map

@[simp] theorem accepted_seq {f : Checked (α → β)} {a : Checked α} :
    (f <*> a).Accepted ↔ f.Accepted ∧ a.Accepted := by
  cases f <;> cases a <;> simp [Seq.seq, apply]

@[simp] theorem accepted_seqLeft {a : Checked α} {b : Checked β} :
    (a <* b).Accepted ↔ a.Accepted ∧ b.Accepted :=
  accepted_seq.trans (and_congr_left' accepted_fmap)

@[simp] theorem accepted_under {a : Checked α} {step : Step} :
    (a.under step).Accepted ↔ a.Accepted := by
  cases a <;> simp [under]

end Checked

namespace Field

variable {α : Type} {ms : Fields} {name : String} {read : Value → Checked α} {v : Value}

@[simp] theorem not_accepted_refuse {complaint : Complaint} :
    ¬ (refuse complaint v : Checked α).Accepted :=
  Checked.not_accepted_rejected _

@[simp] theorem accepted_optional {default : α} : (optional ms name default read).Accepted ↔
    ∀ v, Members.get? ms name = some v → (read v).Accepted := by
  cases found : Members.get? ms name <;> simp [optional, found]

@[simp] theorem accepted_required : (required ms name read).Accepted ↔
    Members.has ms name = true ∧ ∀ v, Members.get? ms name = some v → (read v).Accepted := by
  cases found : Members.get? ms name <;> simp [required, Members.has, found]

theorem accepted_only {names : List String} : (only names ms).Accepted ↔
    ∀ m ∈ ms, m.1 ∈ names := by
  have known : (ms.filter fun m => !names.contains m.1) = [] ↔ ∀ m ∈ ms, m.1 ∈ names := by
    simp
  unfold only
  split
  next none => simpa using known.1 none
  next other =>
    simp only [Checked.not_accepted_rejected, false_iff]
    exact fun all => other (known.2 all)

@[simp] theorem accepted_any : (any v).Accepted :=
  Checked.accepted_ok v

@[simp] theorem accepted_orNull : (orNull read v).Accepted ↔ v = .null ∨ (read v).Accepted := by
  cases v <;> simp [orNull]

@[simp] theorem accepted_object : (object v).Accepted ↔ ∃ members, v = .obj members := by
  cases v <;> simp [object]

@[simp] theorem accepted_text : (text v).Accepted ↔ ∃ s, v = .str s := by
  cases v <;> simp [text]

@[simp] theorem accepted_name : (Field.name v).Accepted ↔ ∃ s, v = .str s ∧ s ≠ "" := by
  cases v with
  | str s => by_cases empty : s = "" <;> simp [Field.name, empty]
  | _ => simp [Field.name]

@[simp] theorem accepted_method : (method v).Accepted ↔
    ∃ s, v = .str s ∧ (Method.ofName? s).isSome = true := by
  cases v with
  | str s => cases known : Method.ofName? s <;> simp [method, known]
  | _ => simp [method]

end Field

namespace Given

variable {α : Type} {kind : Kind} {build : Fields → Checked α}

theorem accepted_readClosed {members : Fields} : (readClosed kind build (.obj members)).Accepted ↔
    (build members).Accepted ∧ ∀ m ∈ members, m.1 ∈ kind.memberNames := by
  simp [readClosed, read, Field.accepted_only]

/-- A record of a kind as it is read: of the kind itself, or of a narrower one, of which it keeps
the further members. -/
structure Sound (kind : Kind) (g : Given α) : Prop where
  narrows : g.kind.narrows kind = true
  further : ∀ m ∈ g.further, m.1 ∈ g.kind.memberNames ∧ m.1 ∉ kind.memberNames

theorem built_of_readClosed {v : Value} {g : Given α} (h : readClosed kind build v = .ok g) :
    ∃ members, build members = .ok g.value := by
  cases v with
  | obj members => exact ⟨members, readClosed_eq_ok h⟩
  | record other members names =>
    simp only [readClosed, read] at h
    split at h
    next =>
      obtain ⟨a, whole, rfl⟩ := Checked.map_eq_ok.1 h
      obtain ⟨_, _, first, -, rfl⟩ := Checked.seq_eq_ok.1 whole
      obtain ⟨b, built, rfl⟩ := Checked.map_eq_ok.1 first
      exact ⟨_, built⟩
    next => cases h
  | _ => cases h

theorem sound_of_readClosed {v : Value} {g : Given α}
    (proper : ∀ other members names, v = .record other members names →
      ∀ m ∈ members, m.1 ∈ other.memberNames)
    (h : readClosed kind build v = .ok g) : g.Sound kind := by
  cases v with
  | obj members =>
    obtain ⟨a, -, rfl⟩ := Checked.map_eq_ok.1 h
    exact ⟨by cases kind <;> rfl, by simp⟩
  | record other members names =>
    simp only [readClosed, read] at h
    split at h
    next narrows =>
      obtain ⟨a, -, rfl⟩ := Checked.map_eq_ok.1 h
      refine ⟨narrows, fun m member => ?_⟩
      obtain ⟨inside, further⟩ := List.mem_filter.1 member
      exact ⟨proper _ _ _ rfl m inside, by simpa using further⟩
    next => cases h
  | _ => cases h

end Given

end Config

namespace Endpoint

open Config

/-- The values that a member of an endpoint may have. -/
def Fits (name : String) (v : Value) : Prop :=
  match name with
  | "query_args" | "headers" => v = .null ∨ ∃ members, v = .obj members
  | "body" => True
  | "omit_body" => v = .null ∨ (Field.flag v).Accepted
  | "pagination" | "client" => v = .null ∨ ∃ s, v = .str s
  | "path" => ∃ s, v = .str s ∧ s ≠ ""
  | "method" => ∃ s, v = .str s ∧ (Method.ofName? s).isSome = true
  | "readonly" => (Field.flag v).Accepted
  | _ => False

/-- Data that make up a resolved endpoint. -/
structure Valid (ms : Fields) : Prop where
  path : Members.has ms "path" = true
  fits : ∀ name v, Members.get? ms name = some v → Fits name v

theorem Fits.known {name : String} {v : Value} (fits : Fits name v) :
    name ∈ Kind.resolvedEndpoint.memberNames := by
  unfold Fits at fits
  split at fits <;> first | contradiction | decide

theorem Settings.accepted_build {ms : Fields} : (Settings.build ms).Accepted ↔
    ∀ name ∈ Kind.endpointSettings.memberNames, ∀ v, Members.get? ms name = some v →
      Fits name v := by
  simp [Settings.build, Kind.memberNames, Kind.memberNames.settings, Fits, and_assoc]

theorem Resolved.accepted_build {ms : Fields} : (Resolved.build ms).Accepted ↔
    Members.has ms "path" = true ∧ ∀ name ∈ Kind.resolvedEndpoint.memberNames, ∀ v,
      Members.get? ms name = some v → Fits name v := by
  simp [Resolved.build, Target.build, Settings.build, Kind.memberNames, Kind.memberNames.target,
    Kind.memberNames.settings, Fits]
  tauto

theorem Resolved.accepted_read {ms : Fields} : (Resolved.read (.obj ms)).Accepted ↔ Valid ms := by
  rw [Resolved.read, Given.accepted_readClosed, accepted_build]
  constructor
  · rintro ⟨⟨path, fits⟩, known⟩
    exact ⟨path, fun name v found => fits name (known _ (Members.mem_of_get? found)) v found⟩
  · intro valid
    refine ⟨⟨valid.path, fun name _ => valid.fits name⟩, fun m member => ?_⟩
    have present : Members.has ms m.1 = true := Members.has_iff.2 (List.mem_map_of_mem member)
    obtain ⟨v, found⟩ := Option.isSome_iff_exists.1 present
    exact (valid.fits m.1 v found).known

theorem Settings.fits_of_accepted {ms : Fields} (distinct : (Members.keys ms).Nodup)
    (accepted : (Settings.read (.obj ms)).Accepted) :
    ∀ m ∈ ms, m.1 ∈ Kind.endpointSettings.memberNames ∧ Fits m.1 m.2 := by
  obtain ⟨built, known⟩ := Given.accepted_readClosed.1 accepted
  intro m member
  have found : Members.get? ms m.1 = some m.2 := (Members.get?_eq_some_iff distinct).2 member
  exact ⟨known m member, Settings.accepted_build.1 built m.1 (known m member) m.2 found⟩

end Endpoint

end Harvest
