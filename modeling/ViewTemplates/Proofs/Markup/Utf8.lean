import Mathlib.Data.List.TakeWhile

/-!
# Texts as bytes

A text is kept as the bytes of its characters (`encode`). Bytes that are cut out of it are read back
by `decodeLossy`, which puts a replacement character in the place of bytes that are no character.

* `decodeLossy_encode`: the bytes of some characters are read back as these characters.
* `Matches.takeWhile_encode`, `Matches.dropWhile_encode`: a class of bytes that goes with a class of
  characters cuts the bytes of a text at the same place.

A byte below 128 is only found as the whole of a character (`encode_char_of_lt`,
`le_of_mem_encode_char`), so a byte compares with numbers below 128 as its character does
(`min_of_mem_encode_char`). A class of bytes that is put together from such comparisons goes with
the class of characters that is put together alike.
-/

set_option autoImplicit false

namespace ViewTemplates.Utf8

/-! ## Bytes of characters -/

/-- The bytes of some characters. -/
def encode (cs : List Char) : List UInt8 := cs.flatMap String.utf8EncodeChar

/-- The bytes of a text. -/
def bytes (text : String) : List UInt8 := text.toUTF8.data.toList

@[simp] theorem encode_nil : encode [] = [] := rfl

theorem encode_cons (c : Char) (cs : List Char) :
    encode (c :: cs) = String.utf8EncodeChar c ++ encode cs := rfl

theorem encode_append (a b : List Char) : encode (a ++ b) = encode a ++ encode b :=
  List.flatMap_append

theorem take_encode (a b : List Char) : (encode (a ++ b)).take (encode a).length = encode a := by
  rw [encode_append, List.take_left]

theorem drop_encode (a b : List Char) : (encode (a ++ b)).drop (encode a).length = encode b := by
  rw [encode_append, List.drop_left]

theorem encode_toList (text : String) : encode text.toList = bytes text := by
  have h := congrArg (fun b => b.data.toList) (String.utf8Encode_toList (b := text))
  rw [bytes, String.toUTF8_eq_toByteArray, ← h]
  simp [List.utf8Encode, encode]

theorem length_encode (cs : List Char) : (encode cs).length = (String.ofList cs).utf8ByteSize := by
  have h := encode_toList (String.ofList cs)
  rw [String.toList_ofList] at h
  rw [h]
  rfl

/-- A character below 128 is one byte. -/
theorem encode_char_of_lt {c : Char} (h : c.toNat < 128) :
    String.utf8EncodeChar c = [c.toUInt8] := by
  have hle : c.val.toNat ≤ 127 := Nat.le_of_lt_succ h
  rw [String.utf8EncodeChar, if_pos hle]
  rfl

theorem toNat_toUInt8 {c : Char} (h : c.toNat < 128) : c.toUInt8.toNat = c.toNat := by
  have hlt : c.toNat < 256 := Nat.lt_trans h (by decide)
  rw [Char.toUInt8, UInt32.toNat_toUInt8]
  exact Nat.mod_eq_of_lt hlt

/-- The bytes of all other characters are not below 128. -/
theorem le_of_mem_encode_char {c : Char} (h : 128 ≤ c.toNat) :
    ∀ b ∈ String.utf8EncodeChar c, 128 ≤ b := by
  have hnot : ¬ c.val.toNat ≤ 127 := Nat.not_le_of_lt h
  have hle {n : Nat} (hlow : 128 ≤ n) (hhigh : n < 256) : 128 ≤ UInt8.ofNat n := by
    rw [UInt8.le_iff_toNat_le, UInt8.toNat_ofNat_of_lt' hhigh]
    exact hlow
  intro b hb
  rw [String.utf8EncodeChar, if_neg hnot] at hb
  split at hb
  · simp only [List.mem_cons, List.not_mem_nil, or_false] at hb
    rcases hb with rfl | rfl <;> exact hle (by omega) (by omega)
  split at hb
  · simp only [List.mem_cons, List.not_mem_nil, or_false] at hb
    rcases hb with rfl | rfl | rfl <;> exact hle (by omega) (by omega)
  · simp only [List.mem_cons, List.not_mem_nil, or_false] at hb
    rcases hb with rfl | rfl | rfl | rfl <;> exact hle (by omega) (by omega)

/-- A byte of a character is like the character as far as numbers below 128 go. -/
theorem min_of_mem_encode_char {c : Char} {b : UInt8} (hb : b ∈ String.utf8EncodeChar c) :
    min b.toNat 128 = min c.toNat 128 := by
  rcases Nat.lt_or_ge c.toNat 128 with hc | hc
  · rw [encode_char_of_lt hc, List.mem_singleton] at hb
    rw [hb, toNat_toUInt8 hc]
  · have hle : 128 ≤ b.toNat := UInt8.le_iff_toNat_le.1 (le_of_mem_encode_char hc b hb)
    rw [Nat.min_eq_right hle, Nat.min_eq_right hc]

/-! ## Reading bytes back -/

/-- What stands for bytes that are no character. -/
def replacement : Char := '\uFFFD'

/-- The bytes that can follow a first byte in a character: the least and the greatest for the next
one, and how many come after that. -/
def follow? (b : UInt8) : Option (UInt8 × UInt8 × Nat) :=
  if 0xC2 ≤ b && b ≤ 0xDF then some (0x80, 0xBF, 0)
  else if b = 0xE0 then some (0xA0, 0xBF, 1)
  else if b = 0xED then some (0x80, 0x9F, 1)
  else if 0xE1 ≤ b && b ≤ 0xEF then some (0x80, 0xBF, 1)
  else if b = 0xF0 then some (0x90, 0xBF, 2)
  else if 0xF1 ≤ b && b ≤ 0xF3 then some (0x80, 0xBF, 2)
  else if b = 0xF4 then some (0x80, 0x8F, 2)
  else none

/-- How many bytes are replaced together with a first byte: those that a character could have
there. -/
def torn (b : UInt8) (rest : List UInt8) : Nat :=
  match follow? b, rest with
  | some (low, high, more), next :: rest =>
    if low ≤ next && next ≤ high then
      ((rest.take more).takeWhile fun b => 0x80 ≤ b && b ≤ 0xBF).length + 1
    else 0
  | _, _ => 0

/-- The characters of some bytes. -/
def decodeLossy : List UInt8 → List Char
  | [] => []
  | b :: rest =>
    match (b :: rest).toByteArray.utf8DecodeChar? 0 with
    | some c => c :: decodeLossy (rest.drop (c.utf8Size - 1))
    | none => replacement :: decodeLossy (rest.drop (torn b rest))
  termination_by bytes => bytes.length
  decreasing_by all_goals simp only [List.length_drop, List.length_cons]; omega

theorem decode_char_append (c : Char) (rest : List UInt8) :
    (String.utf8EncodeChar c ++ rest).toByteArray.utf8DecodeChar? 0 = some c := by
  rw [List.toByteArray_append]
  exact ByteArray.utf8DecodeChar?_utf8EncodeChar_append

theorem decodeLossy_encode (cs : List Char) : decodeLossy (encode cs) = cs := by
  induction cs with
  | nil => simp [decodeLossy]
  | cons c cs ih =>
    have hdecode := decode_char_append c (encode cs)
    have hlength := String.length_utf8EncodeChar c
    obtain ⟨b, tail, hchar⟩ := List.exists_cons_of_ne_nil (String.utf8EncodeChar_ne_nil (c := c))
    rw [hchar] at hdecode hlength
    have hdrop : (tail ++ encode cs).drop (c.utf8Size - 1) = encode cs :=
      List.drop_left' (by rw [← hlength]; rfl)
    rw [encode_cons, hchar, List.cons_append, decodeLossy, ← List.cons_append]
    simp only [hdecode, hdrop, ih]

theorem encode_inj {a b : List Char} : encode a = encode b ↔ a = b := by
  refine ⟨fun h => ?_, congrArg encode⟩
  rw [← decodeLossy_encode a, h, decodeLossy_encode]

@[simp] theorem bytes_inj {a b : String} : bytes a = bytes b ↔ a = b := by
  rw [← encode_toList, ← encode_toList, encode_inj, String.toList_inj]

/-- A text begins with another one exactly if its bytes do. -/
theorem encode_prefix_iff {a b : List Char} : encode a <+: encode b ↔ a <+: b := by
  refine ⟨fun h => ?_, fun ⟨rest, hrest⟩ => ⟨encode rest, by rw [← encode_append, hrest]⟩⟩
  induction a generalizing b with
  | nil => exact List.nil_prefix
  | cons c a ih =>
    cases b with
    | nil =>
      have hnil := List.append_eq_nil_iff.1 (List.prefix_nil.1 h)
      exact absurd hnil.1 String.utf8EncodeChar_ne_nil
    | cons d b =>
      obtain ⟨rest, hrest⟩ := h
      rw [encode_cons, encode_cons, List.append_assoc] at hrest
      have hchar := decode_char_append d (encode b)
      rw [← hrest, decode_char_append] at hchar
      cases hchar
      have hprefix : encode a <+: encode b := ⟨rest, List.append_cancel_left hrest⟩
      exact List.cons_prefix_cons.2 ⟨rfl, ih hprefix⟩

/-! ## Classes of bytes -/

/-- All bytes of a character are in the class `q` if the character is in the class `p`, and none of
them otherwise. -/
def Matches (q : UInt8 → Bool) (p : Char → Bool) : Prop :=
  ∀ c, ∀ b ∈ String.utf8EncodeChar c, q b = p c

section
variable {q q' : UInt8 → Bool} {p p' : Char → Bool}

theorem Matches.or (h : Matches q p) (h' : Matches q' p') :
    Matches (fun b => q b || q' b) fun c => p c || p' c :=
  fun c b hb => congrArg₂ Bool.or (h c b hb) (h' c b hb)

theorem Matches.and (h : Matches q p) (h' : Matches q' p') :
    Matches (fun b => q b && q' b) fun c => p c && p' c :=
  fun c b hb => congrArg₂ Bool.and (h c b hb) (h' c b hb)

theorem Matches.not (h : Matches q p) : Matches (fun b => !q b) fun c => !p c :=
  fun c b hb => congrArg Bool.not (h c b hb)

section
variable (d : Char) (hd : d.toNat < 128)
include hd

theorem matches_ge : Matches (fun b => b ≥ d.toUInt8) fun c => c.val ≥ d.val := by
  intro c b hb
  have hmin := min_of_mem_encode_char hb
  rw [decide_eq_decide, ge_iff_le, ge_iff_le, UInt8.le_iff_toNat_le, toNat_toUInt8 hd,
    UInt32.le_iff_toNat_le]
  simp only [Char.toNat] at *
  omega

theorem matches_le : Matches (fun b => b ≤ d.toUInt8) fun c => c.val ≤ d.val := by
  intro c b hb
  have hmin := min_of_mem_encode_char hb
  rw [decide_eq_decide, UInt8.le_iff_toNat_le, toNat_toUInt8 hd, UInt32.le_iff_toNat_le]
  simp only [Char.toNat] at *
  omega

theorem matches_eq : Matches (fun b => b == d.toUInt8) fun c => c == d := by
  intro c b hb
  have hmin := min_of_mem_encode_char hb
  rw [Bool.eq_iff_iff, beq_iff_eq, beq_iff_eq, ← UInt8.toNat_inj, toNat_toUInt8 hd, Char.ext_iff,
    ← UInt32.toNat_inj]
  simp only [Char.toNat] at *
  omega

theorem matches_ne : Matches (· != d.toUInt8) (· ≠ d) := fun c b hb =>
  ((matches_eq d hd).not c b hb).trans decide_not.symm

theorem count_encode (cs : List Char) : (encode cs).count d.toUInt8 = cs.count d := by
  induction cs with
  | nil => rfl
  | cons c cs ih =>
    rw [encode_cons, List.count_append, ih, List.count_cons, Nat.add_comm]
    congr 1
    split
    · rename_i hc
      rw [eq_of_beq hc, encode_char_of_lt hd]
      exact List.count_singleton_self
    · rename_i hc
      exact List.count_eq_zero.2 fun hb =>
        hc ((matches_eq d hd c _ hb).symm.trans (beq_self_eq_true _))

end

variable (h : Matches q p)
include h

theorem Matches.takeWhile_encode (cs : List Char) :
    (encode cs).takeWhile q = encode (cs.takeWhile p) := by
  induction cs with
  | nil => rfl
  | cons c cs ih =>
    rw [encode_cons]
    cases hc : p c with
    | true =>
      rw [List.takeWhile_append_of_pos fun b hb => (h c b hb).trans hc, ih,
        List.takeWhile_cons_of_pos hc, encode_cons]
    | false =>
      obtain ⟨b, tail, hchar⟩ := List.exists_cons_of_ne_nil (String.utf8EncodeChar_ne_nil (c := c))
      have hb : q b = false := (h c b (hchar ▸ List.mem_cons_self)).trans hc
      simp [hchar, hb, hc]

theorem Matches.dropWhile_encode (cs : List Char) :
    (encode cs).dropWhile q = encode (cs.dropWhile p) := by
  have hsplit := List.takeWhile_append_dropWhile (p := q) (l := encode cs)
  rw [h.takeWhile_encode] at hsplit
  have heq : encode (cs.takeWhile p) ++ (encode cs).dropWhile q =
      encode (cs.takeWhile p) ++ encode (cs.dropWhile p) := by
    rw [hsplit, ← encode_append, List.takeWhile_append_dropWhile]
  exact List.append_cancel_left heq

end

end ViewTemplates.Utf8
