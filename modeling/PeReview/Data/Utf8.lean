import Mathlib.Data.Bool.Basic

/-!
# UTF-8

`str.encode("utf-8")`, the incremental decoder of `codecs`, and a text cut to a number of
bytes.
-/

namespace PeReview

/-- `str.encode("utf-8")`. -/
def encodeUtf8 (text : List Char) : List UInt8 :=
  text.flatMap String.utf8EncodeChar

/-- The longest prefix of at most so many UTF-8 bytes. -/
def takeUtf8 : Nat → List Char → List Char
  | _, [] => []
  | limit, char :: rest =>
      if char.utf8Size ≤ limit then
        char :: takeUtf8 (limit - char.utf8Size) rest
      else []

/-- The length of the sequence a byte begins; zero for a byte that begins none. -/
def sequenceSize (first : UInt8) : Nat :=
  let code := first.toNat
  if code < 0x80 then 1
  else if code < 0xC2 then 0
  else if code < 0xE0 then 2
  else if code < 0xF0 then 3
  else if code < 0xF5 then 4
  else 0

/-- A byte within a sequence. -/
def isContinuation (byte : UInt8) : Bool :=
  0x80 ≤ byte.toNat && byte.toNat < 0xC0

/-- Neither an overlong sequence, nor a surrogate, nor a code behind the last one. -/
def followsFirst (first second : UInt8) : Bool :=
  let low := if first.toNat = 0xE0 then 0xA0 else if first.toNat = 0xF0 then 0x90 else 0x80
  let high := if first.toNat = 0xED then 0xA0 else if first.toNat = 0xF4 then 0x90 else 0xC0
  low ≤ second.toNat && second.toNat < high

def followFirst (first : UInt8) : List UInt8 → Bool
  | [] => true
  | second :: later => followsFirst first second && later.all isContinuation

/-- What the first byte of a sequence of some length is above the bits of the code. -/
def sequenceLead : Nat → Nat
  | 2 => 0xC0
  | 3 => 0xE0
  | 4 => 0xF0
  | _ => 0

def sequenceCode (first : UInt8) (others : List UInt8) : Nat :=
  others.foldl (fun code byte => code * 64 + (byte.toNat - 0x80))
    (first.toNat - sequenceLead (sequenceSize first))

inductive Utf8Start
  | char (value : Char) (rest : List UInt8)
  | incomplete
  | invalid
  deriving DecidableEq, Repr

def utf8Start (first : UInt8) (rest : List UInt8) : Utf8Start :=
  let size := sequenceSize first
  let others := rest.take (size - 1)
  if size = 0 || !followFirst first others then .invalid
  else if others.length + 1 < size then .incomplete
  else .char (Char.ofNat (sequenceCode first others)) (rest.drop (size - 1))

/-- `decoder.decode(bytes, final)`, with `errors="strict"`; none where it raises a
`UnicodeDecodeError`. -/
def decodeFrom (final : Bool) : Nat → List UInt8 → Option (List Char)
  | _, [] => some []
  | 0, _ :: _ => none
  | fuel + 1, first :: rest =>
      match utf8Start first rest with
      | .char value rest => (decodeFrom final fuel rest).map (value :: ·)
      | .incomplete => if final then none else some []
      | .invalid => none

/-- `decoder.decode`; each character takes a byte. -/
def decodeUtf8 (final : Bool) (bytes : List UInt8) : Option (List Char) :=
  decodeFrom final bytes.length bytes

section Characters

variable {char : Char} {text : List Char} {bytes rest : List UInt8} {limit : Nat}

structure IsSequence (char : Char) (first : UInt8) (others : List UInt8) : Prop where
  encoded : String.utf8EncodeChar char = first :: others
  size : sequenceSize first = others.length + 1
  follow : followFirst first others = true
  code : sequenceCode first others = char.toNat

theorem toNat_byte (code : Nat) (small : code < 256) : (UInt8.ofNat code).toNat = code := by
  rw [UInt8.toNat_ofNat']
  exact Nat.mod_eq_of_lt small

theorem sequence_one (one : char.toNat ≤ 0x7F) :
    IsSequence char (UInt8.ofNat char.toNat) [] := by
  have first := toNat_byte char.toNat (by omega)
  have size : sequenceSize (UInt8.ofNat char.toNat) = 1 := by
    simp only [sequenceSize, first]
    grind
  refine ⟨?_, size, rfl, ?_⟩
  · exact if_pos one
  · simp [sequenceCode, size, sequenceLead, first]

theorem sequence_two (one : ¬char.toNat ≤ 0x7F) (two : char.toNat ≤ 0x7FF) :
    IsSequence char (UInt8.ofNat (char.toNat / 64 % 0x20 + 0xC0))
      [UInt8.ofNat (char.toNat % 0x40 + 0x80)] := by
  have first := toNat_byte (char.toNat / 64 % 0x20 + 0xC0) (by omega)
  have second := toNat_byte (char.toNat % 0x40 + 0x80) (by omega)
  have size : sequenceSize (UInt8.ofNat (char.toNat / 64 % 0x20 + 0xC0)) = 2 := by
    simp only [sequenceSize, first]
    grind
  refine ⟨?_, size, ?_, ?_⟩
  · exact (if_neg one).trans (if_pos two)
  · simp only [followFirst, followsFirst, first, second, List.all_nil]
    grind
  · simp only [sequenceCode, size, sequenceLead, first, second, List.foldl_cons, List.foldl_nil]
    omega

theorem sequence_three (two : ¬char.toNat ≤ 0x7FF) (three : char.toNat ≤ 0xFFFF) :
    IsSequence char (UInt8.ofNat (char.toNat / 4096 % 0x10 + 0xE0))
      [UInt8.ofNat (char.toNat / 64 % 0x40 + 0x80),
        UInt8.ofNat (char.toNat % 0x40 + 0x80)] := by
  have valid : char.toNat < 0xD800 ∨ 0xDFFF < char.toNat ∧ char.toNat < 0x110000 := char.valid
  have first := toNat_byte (char.toNat / 4096 % 0x10 + 0xE0) (by omega)
  have second := toNat_byte (char.toNat / 64 % 0x40 + 0x80) (by omega)
  have third := toNat_byte (char.toNat % 0x40 + 0x80) (by omega)
  have size : sequenceSize (UInt8.ofNat (char.toNat / 4096 % 0x10 + 0xE0)) = 3 := by
    simp only [sequenceSize, first]
    grind
  have one : ¬char.toNat ≤ 0x7F := by omega
  refine ⟨?_, size, ?_, ?_⟩
  · exact (if_neg one).trans ((if_neg two).trans (if_pos three))
  · simp only [followFirst, followsFirst, isContinuation, first, second, third, List.all_nil,
      List.all_cons]
    grind
  · simp only [sequenceCode, size, sequenceLead, first, second, third, List.foldl_cons,
      List.foldl_nil]
    omega

theorem sequence_four (three : ¬char.toNat ≤ 0xFFFF) :
    IsSequence char (UInt8.ofNat (char.toNat / 262144 % 0x08 + 0xF0))
      [UInt8.ofNat (char.toNat / 4096 % 0x40 + 0x80),
        UInt8.ofNat (char.toNat / 64 % 0x40 + 0x80),
        UInt8.ofNat (char.toNat % 0x40 + 0x80)] := by
  have valid : char.toNat < 0xD800 ∨ 0xDFFF < char.toNat ∧ char.toNat < 0x110000 := char.valid
  have first := toNat_byte (char.toNat / 262144 % 0x08 + 0xF0) (by omega)
  have second := toNat_byte (char.toNat / 4096 % 0x40 + 0x80) (by omega)
  have third := toNat_byte (char.toNat / 64 % 0x40 + 0x80) (by omega)
  have fourth := toNat_byte (char.toNat % 0x40 + 0x80) (by omega)
  have size : sequenceSize (UInt8.ofNat (char.toNat / 262144 % 0x08 + 0xF0)) = 4 := by
    simp only [sequenceSize, first]
    grind
  have one : ¬char.toNat ≤ 0x7F := by omega
  have two : ¬char.toNat ≤ 0x7FF := by omega
  refine ⟨?_, size, ?_, ?_⟩
  · exact (if_neg one).trans ((if_neg two).trans (if_neg three))
  · simp only [followFirst, followsFirst, isContinuation, first, second, third, fourth,
      List.all_nil, List.all_cons]
    grind
  · simp only [sequenceCode, size, sequenceLead, first, second, third, fourth, List.foldl_cons,
      List.foldl_nil]
    omega

/-- Every character is encoded as the decoder expects it. -/
theorem exists_sequence (char : Char) : ∃ first others, IsSequence char first others := by
  by_cases one : char.toNat ≤ 0x7F
  · exact ⟨_, _, sequence_one one⟩
  by_cases two : char.toNat ≤ 0x7FF
  · exact ⟨_, _, sequence_two one two⟩
  by_cases three : char.toNat ≤ 0xFFFF
  · exact ⟨_, _, sequence_three two three⟩
  · exact ⟨_, _, sequence_four three⟩

theorem followFirst_of_isPrefix {first : UInt8} {part others : List UInt8}
    (isPrefix : part <+: others) (follow : followFirst first others = true) :
    followFirst first part = true := by
  cases others with
  | nil =>
      rw [List.prefix_nil.mp isPrefix]
      exact follow
  | cons second later =>
      rcases List.prefix_cons_iff.mp isPrefix with none_ | more
      · rw [none_]
        rfl
      · obtain ⟨shorter, same, within⟩ := more
        rw [followFirst, Bool.and_eq_true, List.all_eq_true] at follow
        rw [same, followFirst, Bool.and_eq_true, List.all_eq_true]
        exact ⟨follow.1, fun byte member => follow.2 byte (within.subset member)⟩

theorem utf8Start_sequence {first : UInt8} {others : List UInt8}
    (sequence : IsSequence char first others) (rest : List UInt8) :
    utf8Start first (others ++ rest) = .char char rest := by
  have code : Char.ofNat (sequenceCode first others) = char := by
    rw [sequence.code]
    exact Char.ofNat_toNat char
  unfold utf8Start
  simp [sequence.size, sequence.follow, code]

/-- A character that is cut is not decoded yet. -/
theorem utf8Start_cut {first : UInt8} {part others : List UInt8}
    (sequence : IsSequence char first others) (isPrefix : part <+: others)
    (shorter : part.length < others.length) : utf8Start first part = .incomplete := by
  have follow := followFirst_of_isPrefix isPrefix sequence.follow
  have whole : part.take others.length = part := List.take_of_length_le (Nat.le_of_lt shorter)
  unfold utf8Start
  simp [sequence.size, whole, follow, shorter]

/-- The start of a character's bytes. -/
def IsFragment (tail : List UInt8) : Prop :=
  ∃ char, tail <+: String.utf8EncodeChar char ∧ tail.length < char.utf8Size

theorem isFragment_nil : IsFragment [] :=
  ⟨'a', List.nil_prefix, by decide⟩

theorem decodeFrom_fragment {tail : List UInt8} (fragment : IsFragment tail) {fuel : Nat}
    (enough : tail.length ≤ fuel) : decodeFrom false fuel tail = some [] := by
  cases tail with
  | nil => rw [decodeFrom]
  | cons first part =>
      obtain ⟨char, isPrefix, shorter⟩ := fragment
      obtain ⟨lead, others, sequence⟩ := exists_sequence char
      rw [← String.length_utf8EncodeChar, sequence.encoded, List.length_cons,
        List.length_cons] at shorter
      rw [sequence.encoded, List.cons_prefix_cons] at isPrefix
      obtain ⟨same, within⟩ := isPrefix
      obtain ⟨fuel, rfl⟩ := Nat.exists_eq_add_of_lt (Nat.lt_of_lt_of_le (Nat.succ_pos _) enough)
      rw [Nat.zero_add, decodeFrom, same, utf8Start_cut sequence within (by omega)]
      rfl

/-- A text is decoded in front of what ends the decoding. -/
theorem decodeFrom_append {final : Bool} {tail : List UInt8}
    (ends : ∀ fuel, tail.length ≤ fuel → decodeFrom final fuel tail = some [])
    (text : List Char) {fuel : Nat} (enough : (encodeUtf8 text ++ tail).length ≤ fuel) :
    decodeFrom final fuel (encodeUtf8 text ++ tail) = some text := by
  induction text generalizing fuel with
  | nil => exact ends fuel enough
  | cons char text inductionHypothesis =>
      obtain ⟨first, others, sequence⟩ := exists_sequence char
      have listed : encodeUtf8 (char :: text) ++ tail =
          first :: (others ++ (encodeUtf8 text ++ tail)) := by
        unfold encodeUtf8
        rw [List.flatMap_cons, sequence.encoded, List.cons_append, List.cons_append,
          List.append_assoc]
      rw [listed, List.length_cons, List.length_append] at enough
      obtain ⟨fuel, rfl⟩ := Nat.exists_eq_add_of_lt (Nat.lt_of_lt_of_le (Nat.succ_pos _) enough)
      rw [listed, Nat.zero_add, decodeFrom, utf8Start_sequence sequence]
      dsimp only
      rw [inductionHypothesis (by omega)]
      rfl

theorem decodeUtf8_encode (final : Bool) (text : List Char) :
    decodeUtf8 final (encodeUtf8 text) = some text := by
  have ends (fuel : Nat) (_ : ([] : List UInt8).length ≤ fuel) :
      decodeFrom final fuel [] = some [] := by
    rw [decodeFrom]
  have decoded := decodeFrom_append ends text (Nat.le_refl _)
  rw [List.append_nil] at decoded
  exact decoded

/-- A character that is cut off is left out. -/
theorem decodeUtf8_cut {tail : List UInt8} (fragment : IsFragment tail) (text : List Char) :
    decodeUtf8 false (encodeUtf8 text ++ tail) = some text :=
  decodeFrom_append (fun _ enough => decodeFrom_fragment fragment enough) text (Nat.le_refl _)

theorem encodeUtf8_injective {first second : List Char}
    (same : encodeUtf8 first = encodeUtf8 second) : first = second := by
  have decoded := decodeUtf8_encode true first
  rw [same, decodeUtf8_encode] at decoded
  exact (Option.some_inj.mp decoded).symm

theorem encodeUtf8_append (first second : List Char) :
    encodeUtf8 (first ++ second) = encodeUtf8 first ++ encodeUtf8 second :=
  List.flatMap_append

theorem length_encodeUtf8_cons :
    (encodeUtf8 (char :: text)).length = char.utf8Size + (encodeUtf8 text).length := by
  unfold encodeUtf8
  rw [List.flatMap_cons, List.length_append, String.length_utf8EncodeChar]

/-- The bytes of a text that are kept are those of whole characters and of one that is cut. -/
theorem take_encodeUtf8 (limit : Nat) (text : List Char) :
    ∃ tail, IsFragment tail ∧
      (encodeUtf8 text).take limit = encodeUtf8 (takeUtf8 limit text) ++ tail := by
  induction text generalizing limit with
  | nil => exact ⟨[], isFragment_nil, by simp [encodeUtf8, takeUtf8]⟩
  | cons char text inductionHypothesis =>
      have size := String.length_utf8EncodeChar char
      have listed : encodeUtf8 (char :: text) = String.utf8EncodeChar char ++ encodeUtf8 text :=
        List.flatMap_cons
      rw [listed, List.take_append, size, takeUtf8]
      by_cases fits : char.utf8Size ≤ limit
      · obtain ⟨tail, fragment, cut⟩ := inductionHypothesis (limit - char.utf8Size)
        refine ⟨tail, fragment, ?_⟩
        have all : (String.utf8EncodeChar char).take limit = String.utf8EncodeChar char :=
          List.take_of_length_le (by omega)
        rw [if_pos fits, all, cut]
        unfold encodeUtf8
        rw [List.flatMap_cons, List.append_assoc]
      · refine ⟨(String.utf8EncodeChar char).take limit, ⟨char, List.take_prefix _ _, ?_⟩, ?_⟩
        · rw [List.length_take]
          omega
        · rw [if_neg fits, Nat.sub_eq_zero_of_le (by omega), List.take_zero, List.append_nil]
          rfl

theorem takeUtf8_isPrefix (limit : Nat) (text : List Char) : takeUtf8 limit text <+: text := by
  induction text generalizing limit with
  | nil => exact List.prefix_refl _
  | cons char text inductionHypothesis =>
      rw [takeUtf8]
      split
      · exact List.cons_prefix_cons.mpr ⟨rfl, inductionHypothesis _⟩
      · exact List.nil_prefix

theorem length_encodeUtf8_takeUtf8_le (limit : Nat) (text : List Char) :
    (encodeUtf8 (takeUtf8 limit text)).length ≤ limit := by
  obtain ⟨tail, _, cut⟩ := take_encodeUtf8 limit text
  have lengths := congrArg List.length cut
  rw [List.length_take, List.length_append] at lengths
  omega

theorem encodeUtf8_isPrefix {part : List Char} (isPrefix : part <+: text) :
    encodeUtf8 part <+: encodeUtf8 text := by
  obtain ⟨rest, same⟩ := isPrefix
  rw [← same, encodeUtf8_append]
  exact List.prefix_append _ _

/-- A text that does not fit loses its last character. -/
theorem takeUtf8_concat_isPrefix (long : limit < (encodeUtf8 (text ++ [char])).length) :
    takeUtf8 limit (text ++ [char]) <+: text := by
  rcases List.prefix_concat_iff.mp (takeUtf8_isPrefix limit (text ++ [char])) with whole | shorter
  · have fits := length_encodeUtf8_takeUtf8_le limit (text ++ [char])
    rw [whole] at fits
    omega
  · exact shorter

/-- A text is cut in front of the first character that does not fit. -/
theorem takeUtf8_append {rest : List Char} (fits : (encodeUtf8 text).length ≤ limit)
    (cut : limit < (encodeUtf8 text).length + char.utf8Size) :
    takeUtf8 limit (text ++ char :: rest) = text := by
  induction text generalizing limit with
  | nil =>
      have large : ¬char.utf8Size ≤ limit := by
        have none_ : (encodeUtf8 []).length = 0 := rfl
        omega
      rw [List.nil_append, takeUtf8, if_neg large]
  | cons first text inductionHypothesis =>
      rw [length_encodeUtf8_cons] at fits cut
      rw [List.cons_append, takeUtf8, if_pos (by omega),
        inductionHypothesis (by omega) (by omega)]

end Characters

end PeReview
