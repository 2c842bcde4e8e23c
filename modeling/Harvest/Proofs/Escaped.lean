import Mathlib
import Harvest.Proofs.Encoded
import Harvest.Proofs.Links

namespace Harvest

namespace Link

def isUnreserved (c : Char) : Bool :=
  c.isAlphanum || c == '_' || c == '.' || c == '-' || c == '~'

def hexChar (n : Nat) : Char :=
  n.digitChar.toUpper

def escapeByte (b : Nat) : List Char :=
  if isUnreserved (Char.ofNat b) then [Char.ofNat b] else ['%', hexChar (b / 16), hexChar (b % 16)]

def escape (s : String) : List Char :=
  (s.toList.flatMap Text.Utf8.encode).flatMap escapeByte

def writtenArgument (a : String × String) : List Char :=
  escape a.1 ++ '=' :: escape a.2

def writtenQuery (args : List (String × String)) : List Char :=
  ['&'].intercalate (args.map writtenArgument)

def isWritten (c : Char) : Bool :=
  isUnreserved c || c == '%'

theorem isWritten_hexChar {n : Nat} (digit : n < 16) : isWritten (hexChar n) = true := by
  have table : ∀ n < 16, isWritten (hexChar n) = true := by decide +kernel
  exact table n digit

theorem isWritten_of_mem_escapeByte {b : Nat} (byte : b < 256) :
    ∀ c ∈ escapeByte b, isWritten c = true := by
  intro c member
  unfold escapeByte at member
  split at member
  next unreserved =>
    rw [List.mem_singleton.1 member, isWritten, unreserved, Bool.true_or]
  next =>
    simp only [List.mem_cons, List.not_mem_nil, or_false] at member
    rcases member with rfl | rfl | rfl
    · rfl
    · exact isWritten_hexChar (by omega)
    · exact isWritten_hexChar (by omega)

theorem mem_flatMap_encode_lt {s : String} : ∀ b ∈ s.toList.flatMap Text.Utf8.encode, b < 256 := by
  intro b member
  obtain ⟨c, -, inside⟩ := List.mem_flatMap.1 member
  exact Text.Utf8.encode_lt c b inside

theorem isWritten_of_mem_escape {s : String} : ∀ c ∈ escape s, isWritten c = true := by
  intro c member
  obtain ⟨b, among, inside⟩ := List.mem_flatMap.1 member
  exact isWritten_of_mem_escapeByte (mem_flatMap_encode_lt b among) c inside

theorem ne_of_isWritten {c d : Char} (written : isWritten c = true) (other : isWritten d = false) :
    c ≠ d := by
  rintro rfl
  rw [written] at other
  cases other

theorem isAscii_of_isWritten {c : Char} (written : isWritten c = true) : isAscii c = true := by
  simp only [isWritten, isUnreserved, Bool.or_eq_true, beq_iff_eq] at written
  rcases written with ((((alphanum | rfl) | rfl) | rfl) | rfl) | rfl
  · simp only [Char.isAlphanum, Char.isAlpha, Char.isUpper, Char.isLower, Char.isDigit,
      Bool.or_eq_true, Bool.and_eq_true, decide_eq_true_eq, UInt32.le_iff_toNat_le] at alphanum
    have small : c.toNat < 0x80 := by
      simp at alphanum
      omega
    simpa [isAscii] using small
  all_goals rfl

theorem bytes_cons {c : Char} (plain : c ≠ '%') (rest : List Char) :
    bytes (c :: rest) = c.toNat :: bytes rest := by
  rw [bytes]
  rintro high low others ⟨⟩
  exact absurd rfl plain

theorem byte?_hexChar {high low : Nat} (first : high < 16) (second : low < 16) :
    byte? (hexChar high) (hexChar low) = some (16 * high + low) := by
  have table : ∀ n < 16, Text.hexDigit? (hexChar n) = some n := by decide +kernel
  rw [byte?, table high first, table low second]

theorem bytes_escapeByte_append {b : Nat} (byte : b < 256) (rest : List Char) :
    bytes (escapeByte b ++ rest) = b :: bytes rest := by
  unfold escapeByte
  split
  next unreserved =>
    have number : (Char.ofNat b).toNat = b := Char.toNat_ofNat b |>.trans (if_pos (.inl (by omega)))
    have plain : Char.ofNat b ≠ '%' := by
      intro percent
      rw [percent] at unreserved
      cases unreserved
    rw [List.singleton_append, bytes_cons plain, number]
  next =>
    have value : 16 * (b / 16) + b % 16 = b := Nat.div_add_mod b 16
    simp only [List.cons_append, List.nil_append]
    rw [bytes, byte?_hexChar (by omega) (by omega), value]

theorem bytes_escape (s : String) : bytes (escape s) = s.toList.flatMap Text.Utf8.encode := by
  have each : ∀ all : List Nat, (∀ b ∈ all, b < 256) → bytes (all.flatMap escapeByte) = all := by
    intro all bounded
    induction all with
    | nil => rfl
    | cons b rest ih =>
      obtain ⟨here, later⟩ := List.forall_mem_cons.1 bounded
      rw [List.flatMap_cons, bytes_escapeByte_append here, ih later]
  exact each _ mem_flatMap_encode_lt

theorem unescapeFrom_ascii (run : List Char) {cs : List Char} (ascii : ∀ c ∈ cs, isAscii c = true) :
    unescapeFrom run cs = Text.Utf8.decode (bytes (run.reverse ++ cs)) := by
  induction cs generalizing run with
  | nil => rw [unescapeFrom, List.append_nil]
  | cons c rest ih =>
    obtain ⟨here, later⟩ := List.forall_mem_cons.1 ascii
    rw [unescapeFrom, if_pos here, ih (c :: run) later]
    simp

theorem unescape_escape (s : String) : unescape (escape s) = s := by
  have noBlank : (escape s).map (fun c => if c = '+' then ' ' else c) = escape s := by
    conv_rhs => rw [← List.map_id (escape s)]
    refine List.map_congr_left fun c member => ?_
    exact if_neg (ne_of_isWritten (isWritten_of_mem_escape c member) rfl)
  have ascii : ∀ c ∈ escape s, isAscii c = true :=
    fun c member => isAscii_of_isWritten (isWritten_of_mem_escape c member)
  rw [unescape, noBlank, unescapeFrom_ascii [] ascii, List.reverse_nil, List.nil_append,
    bytes_escape, Text.Utf8.decode_flatMap_encode, String.ofList_toList]

theorem takeWhile_append_cons {α : Type} {keep : α → Bool} {front : List α} {stop : α}
    (kept : ∀ a ∈ front, keep a = true) (stops : keep stop = false) (rest : List α) :
    (front ++ stop :: rest).takeWhile keep = front := by
  rw [List.takeWhile_append_of_pos kept, List.takeWhile_cons_of_neg (by simp [stops]),
    List.append_nil]

theorem dropWhile_append_cons {α : Type} {keep : α → Bool} {front : List α} {stop : α}
    (kept : ∀ a ∈ front, keep a = true) (stops : keep stop = false) (rest : List α) :
    (front ++ stop :: rest).dropWhile keep = stop :: rest := by
  rw [List.dropWhile_append_of_pos kept, List.dropWhile_cons_of_neg (by simp [stops])]

theorem argument_writtenArgument (a : String × String) : argument (writtenArgument a) = a := by
  have kept : ∀ c ∈ escape a.1, (c != '=') = true := fun c member =>
    bne_iff_ne.2 (ne_of_isWritten (isWritten_of_mem_escape c member) rfl)
  rw [argument, writtenArgument, takeWhile_append_cons kept rfl, dropWhile_append_cons kept rfl,
    List.drop_one, List.tail_cons, unescape_escape, unescape_escape]

theorem mem_writtenArgument {a : String × String} {c : Char} (member : c ∈ writtenArgument a) :
    isWritten c = true ∨ c = '=' := by
  rcases List.mem_append.1 member with name | rest
  · exact .inl (isWritten_of_mem_escape c name)
  · rcases List.mem_cons.1 rest with rfl | value
    · exact .inr rfl
    · exact .inl (isWritten_of_mem_escape c value)

theorem queryPairs_writtenQuery (args : List (String × String)) :
    queryPairs (writtenQuery args) = args := by
  cases args with
  | nil => rfl
  | cons a rest =>
    have apart : ∀ piece ∈ (a :: rest).map writtenArgument, '&' ∉ piece := by
      intro piece member inside
      obtain ⟨b, -, rfl⟩ := List.mem_map.1 member
      rcases mem_writtenArgument inside with written | same
      · exact ne_of_isWritten written (d := '&') rfl rfl
      · cases same
    have nonempty : ∀ piece ∈ (a :: rest).map writtenArgument, (! piece.isEmpty) = true := by
      intro piece member
      obtain ⟨b, -, rfl⟩ := List.mem_map.1 member
      simp [writtenArgument]
    rw [queryPairs, writtenQuery, List.splitOn_intercalate _ apart (by simp),
      List.filter_eq_self.2 nonempty, List.map_map]
    exact List.map_id'' argument_writtenArgument _

theorem mem_writtenQuery {args : List (String × String)} {c : Char}
    (member : c ∈ writtenQuery args) : isWritten c = true ∨ c = '=' ∨ c = '&' := by
  unfold writtenQuery at member
  induction args with
  | nil => cases member
  | cons a rest ih =>
    cases rest with
    | nil =>
      rw [List.map_singleton, List.intercalate_singleton] at member
      exact (mem_writtenArgument member).imp_right .inl
    | cons b rest =>
      rw [List.map_cons, List.map_cons, List.intercalate_cons_cons, List.mem_append,
        List.mem_append, List.mem_singleton] at member
      rcases member with (here | rfl) | later
      · exact (mem_writtenArgument here).imp_right .inl
      · exact .inr (.inr rfl)
      · exact ih later

theorem ne_of_mem_writtenQuery {args : List (String × String)} {c d : Char}
    (member : c ∈ writtenQuery args) (other : (isWritten d || d == '=' || d == '&') = false) :
    c ≠ d := by
  simp only [Bool.or_eq_false_iff, beq_eq_false_iff_ne] at other
  rcases mem_writtenQuery member with written | rfl | rfl
  · exact ne_of_isWritten written other.1.1
  · exact other.1.2.symm
  · exact other.2.symm

theorem isIgnored_eq_false_iff {c : Char} :
    isIgnored c = false ↔ c ≠ '\t' ∧ c ≠ '\n' ∧ c ≠ '\r' := by
  simp [isIgnored, and_assoc]

theorem not_isIgnored_of_mem_writtenQuery {args : List (String × String)} :
    ∀ c ∈ writtenQuery args, isIgnored c = false := fun _ member =>
  isIgnored_eq_false_iff.2 ⟨ne_of_mem_writtenQuery member rfl, ne_of_mem_writtenQuery member rfl,
    ne_of_mem_writtenQuery member rfl⟩

theorem parse?_of_parts {text : String} {named path : List Char} {args : List (String × String)}
    (split : splitHost (dropScheme (cleaned text)) = (named, path ++ '?' :: writtenQuery args))
    (isNamed : isHost named = true) (noQuery : ∀ c ∈ path, c ≠ '?')
    (noFragment : ∀ c ∈ path, c ≠ '#') :
    parse? text = some ⟨String.ofList path, writtenQuery args⟩ := by
  have whole : (path ++ '?' :: writtenQuery args).takeWhile (· != '#') =
      path ++ '?' :: writtenQuery args := by
    refine List.takeWhile_eq_self_iff.2 fun c member => bne_iff_ne.2 ?_
    rcases List.mem_append.1 member with before | behind
    · exact noFragment c before
    · rcases List.mem_cons.1 behind with rfl | inside
      · decide
      · exact ne_of_mem_writtenQuery inside rfl
  have kept : ∀ c ∈ path, (c != '?') = true := fun c member => bne_iff_ne.2 (noQuery c member)
  have read : parse? text = if isHost (splitHost (dropScheme (cleaned text))).1 then some
      ⟨String.ofList (((splitHost (dropScheme (cleaned text))).2.takeWhile (· != '#')).takeWhile
          (· != '?')),
        (((splitHost (dropScheme (cleaned text))).2.takeWhile (· != '#')).dropWhile
          (· != '?')).drop 1⟩
      else none := rfl
  rw [read, split, if_pos isNamed, whole, takeWhile_append_cons kept rfl,
    dropWhile_append_cons kept rfl, List.drop_one, List.tail_cons]

def relativeLink (args : List (String × String)) : String :=
  String.ofList ('?' :: writtenQuery args)

def beforeHost : List Char :=
  ['h', 't', 't', 'p', 's', ':', '/', '/']

def absoluteLink (host : List Char) (path : String) (args : List (String × String)) : String :=
  String.ofList (beforeHost ++ (host ++ (path.toList ++ '?' :: writtenQuery args)))

/-- The link carries these arguments to this path: it is their query alone, or an address with that
path in front of it. -/
inductive Carries (path : String) (args : List (String × String)) : String → Prop
  | relative : Carries path args (relativeLink args)
  | absolute {host : List Char} (named : ∀ c ∈ host, c.isAlphanum = true ∨ c = '.')
    (rooted : path.toList.head? = some '/')
    (plain : ∀ c ∈ path.toList, c ∉ ['?', '#', '\t', '\r', '\n']) :
    Carries path args (absoluteLink host path args)

variable {args : List (String × String)} {path text : String}

theorem parse?_relativeLink : parse? (relativeLink args) = some ⟨"", writtenQuery args⟩ := by
  have clean : cleaned (relativeLink args) = '?' :: writtenQuery args := by
    rw [cleaned, relativeLink, String.toList_ofList, List.dropWhile_cons_of_neg (by decide),
      List.filter_cons_of_pos (by decide), List.filter_eq_self.2]
    intro c member
    rw [not_isIgnored_of_mem_writtenQuery c member]
    rfl
  have split : splitHost (dropScheme (cleaned (relativeLink args))) =
      ([], [] ++ '?' :: writtenQuery args) := by
    have noScheme : dropScheme ('?' :: writtenQuery args) = '?' :: writtenQuery args := rfl
    rw [clean, noScheme]
    rfl
  exact parse?_of_parts split rfl nofun nofun

theorem isSuspect_of_isWritten {c : Char} (written : isWritten c = true) : isSuspect c = false := by
  have ascii := isAscii_of_isWritten written
  have above : ∀ n ∈ hiddenDelimiters, 0x80 ≤ n := by decide
  have visible : hiddenDelimiters.contains c.toNat = false := by
    rw [Bool.eq_false_iff, ne_eq, List.contains_iff_mem]
    intro hidden
    have small : c.toNat < 0x80 := by simpa [isAscii] using ascii
    exact absurd small (by simpa using above _ hidden)
  simp only [isSuspect, visible, Bool.or_false, Bool.or_eq_false_iff, beq_eq_false_iff_ne]
  exact ⟨ne_of_isWritten written rfl, ne_of_isWritten written rfl⟩

theorem parse?_absoluteLink {host : List Char}
    (named : ∀ c ∈ host, c.isAlphanum = true ∨ c = '.') (rooted : path.toList.head? = some '/')
    (plain : ∀ c ∈ path.toList, c ∉ ['?', '#', '\t', '\r', '\n']) :
    parse? (absoluteLink host path args) = some ⟨path, writtenQuery args⟩ := by
  have written : ∀ c ∈ host, isWritten c = true := by
    intro c member
    rcases named c member with alphanum | rfl
    · simp [isWritten, isUnreserved, alphanum]
    · rfl
  simp only [List.mem_cons, List.not_mem_nil, or_false, not_or] at plain
  have clean : cleaned (absoluteLink host path args) =
      beforeHost ++ (host ++ (path.toList ++ '?' :: writtenQuery args)) := by
    have kept : ∀ c ∈ beforeHost ++ (host ++ (path.toList ++ '?' :: writtenQuery args)),
        isIgnored c = false := by
      have scheme : ∀ c ∈ beforeHost, isIgnored c = false := by simp [beforeHost, isIgnored]
      intro c member
      rcases List.mem_append.1 member with start | behind
      · exact scheme c start
      rcases List.mem_append.1 behind with inHost | behind
      · have mark := written c inHost
        exact isIgnored_eq_false_iff.2 ⟨ne_of_isWritten mark rfl, ne_of_isWritten mark rfl,
          ne_of_isWritten mark rfl⟩
      rcases List.mem_append.1 behind with inPath | behind
      · obtain ⟨-, -, tab, back, line⟩ := plain c inPath
        exact isIgnored_eq_false_iff.2 ⟨tab, line, back⟩
      rcases List.mem_cons.1 behind with rfl | inQuery
      · rfl
      · exact not_isIgnored_of_mem_writtenQuery c inQuery
    have began : ∀ rest, (beforeHost ++ rest).dropWhile isLeading = beforeHost ++ rest :=
      fun _ => rfl
    rw [cleaned, absoluteLink, String.toList_ofList, began, List.filter_eq_self.2]
    intro c member
    rw [kept c member]
    rfl
  have split : splitHost (dropScheme (cleaned (absoluteLink host path args))) =
      (host, path.toList ++ '?' :: writtenQuery args) := by
    obtain ⟨chars, slash⟩ := List.head?_eq_some_iff.1 rooted
    have scheme : ∀ rest, dropScheme (beforeHost ++ rest) = '/' :: '/' :: rest := fun _ => rfl
    have inHost : ∀ c ∈ host, (! endsHost c) = true := by
      intro c member
      have mark := written c member
      have slash := ne_of_isWritten (d := '/') mark rfl
      have query := ne_of_isWritten (d := '?') mark rfl
      have fragment := ne_of_isWritten (d := '#') mark rfl
      simp [endsHost, slash, query, fragment]
    rw [clean, scheme, slash, List.cons_append, splitHost, takeWhile_append_cons inHost rfl,
      dropWhile_append_cons inHost rfl]
  have read := parse?_of_parts split
    (isHost_of_unsuspected fun c member => isSuspect_of_isWritten (written c member))
    (fun c member => (plain c member).1) (fun c member => (plain c member).2.1)
  rwa [String.ofList_toList] at read

end Link

end Harvest
