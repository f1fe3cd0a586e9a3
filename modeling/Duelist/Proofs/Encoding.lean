import Duelist.Text.Lines
import Duelist.Text.Utf8
import Mathlib.Data.Nat.Notation
import Mathlib.Tactic.Lemma
/-!
# Encoding

Reading bytes as text is the inverse of writing it: bytes are read as a text if they are the bytes
of that text, as the standard library writes them, and are refused if they are those of none
(`Utf8.text?_eq_some_iff`). Both directions go character by character, with one equation of
`Utf8.decode` for each number of bytes that a character may have.

A line feed never belongs to another character, not even to one that breaks off
(`Utf8.decode_append_lineFeed`).
-/

namespace Duelist.Utf8

/-! ### Bytes and scalar values -/

/-- A byte carries six bits if it is those bits with a fixed mark in front. -/
lemma continuation?_eq_some_iff {b : UInt8} {x : ℕ} :
    continuation? b = some x ↔ x < 64 ∧ b = .ofNat (x + 128) := by
  have hb : b.toNat < 256 := b.toNat_lt_size
  simp only [continuation?, Option.ite_none_right_eq_some, Option.some.injEq, ← UInt8.toNat_inj,
    UInt8.le_iff_toNat_le, UInt8.lt_iff_toNat_lt, UInt8.toNat_ofNat]
  constructor
  · rintro ⟨h, rfl⟩
    simp
    omega
  · rintro ⟨h, h'⟩
    simp at h'
    omega

/-- The character numbered `n`, if `n` needs as many bytes as were used. -/
lemma scalar?_eq_some_iff {least n : ℕ} {c : Char} :
    scalar? least n = some c ↔ least ≤ n ∧ c.val.toNat = n := by
  by_cases h : least ≤ n ∧ n.isValidChar
  · rw [scalar?, dif_pos h]
    constructor
    · rintro ⟨⟩
      exact ⟨h.1, rfl⟩
    · rintro ⟨-, rfl⟩
      exact congrArg some (Char.ext rfl)
  · rw [scalar?, dif_neg h]
    constructor
    · rintro ⟨⟩
    · rintro ⟨hle, rfl⟩
      exact absurd ⟨hle, c.valid⟩ h

/-! ### One character -/

/-- A byte below 128 is a character of its own. -/
lemma decode_one {a : UInt8} (h : a.toNat < 128) (rest : List UInt8) :
    decode (a :: rest) = (decode rest).map (Char.ofNat a.toNat :: ·) := by
  have h1 : a < 0x80 := h
  rw [decode.eq_def]
  simp only [if_pos h1, Option.map_eq_bind]
  rfl

/-- The character that two bytes make, and what is behind it. -/
lemma decode_two {a b : UInt8} (h : 192 ≤ a.toNat) (h' : a.toNat < 224) (rest : List UInt8) :
    decode (a :: b :: rest) = (continuation? b).bind fun x =>
      (scalar? 0x80 ((a.toNat - 0xC0) * 0x40 + x)).bind fun c =>
        (decode rest).map (c :: ·) := by
  have h1 : ¬a < 0x80 := by simpa [UInt8.lt_iff_toNat_lt] using by omega
  have h2 : ¬a < 0xC0 := by simpa [UInt8.lt_iff_toNat_lt] using h
  have h3 : a < 0xE0 := h'
  rw [decode, if_neg h1, if_neg h2, if_pos h3]
  simp only [Option.map_eq_bind]
  rfl

/-- The character that three bytes make, and what is behind it. -/
lemma decode_three {a b b' : UInt8} (h : 224 ≤ a.toNat) (h' : a.toNat < 240) (rest : List UInt8) :
    decode (a :: b :: b' :: rest) = (continuation? b).bind fun x => (continuation? b').bind fun y =>
      (scalar? 0x800 ((a.toNat - 0xE0) * 0x1000 + x * 0x40 + y)).bind fun c =>
        (decode rest).map (c :: ·) := by
  have h1 : ¬a < 0x80 := by simpa [UInt8.lt_iff_toNat_lt] using by omega
  have h2 : ¬a < 0xC0 := by simpa [UInt8.lt_iff_toNat_lt] using by omega
  have h3 : ¬a < 0xE0 := by simpa [UInt8.lt_iff_toNat_lt] using h
  have h4 : a < 0xF0 := h'
  rw [decode, if_neg h1, if_neg h2, if_neg h3, if_pos h4]
  simp only [Option.map_eq_bind]
  rfl

/-- The character that four bytes make, and what is behind it. -/
lemma decode_four {a b b' b'' : UInt8} (h : 240 ≤ a.toNat) (h' : a.toNat < 248)
    (rest : List UInt8) :
    decode (a :: b :: b' :: b'' :: rest) = (continuation? b).bind fun x =>
      (continuation? b').bind fun y => (continuation? b'').bind fun z =>
        (scalar? 0x10000 ((a.toNat - 0xF0) * 0x40000 + x * 0x1000 + y * 0x40 + z)).bind fun c =>
          (decode rest).map (c :: ·) := by
  have h1 : ¬a < 0x80 := by simpa [UInt8.lt_iff_toNat_lt] using by omega
  have h2 : ¬a < 0xC0 := by simpa [UInt8.lt_iff_toNat_lt] using by omega
  have h3 : ¬a < 0xE0 := by simpa [UInt8.lt_iff_toNat_lt] using by omega
  have h4 : ¬a < 0xF0 := by simpa [UInt8.lt_iff_toNat_lt] using h
  have h5 : a < 0xF8 := h'
  rw [decode, if_neg h1, if_neg h2, if_neg h3, if_neg h4, if_pos h5]
  simp only [Option.map_eq_bind]
  rfl

/-! ### What was written is read -/

/-- A byte whose number is known. -/
lemma toNat_ofNat_of_lt {n m : ℕ} (h : n = m) (hm : m < 256) : (UInt8.ofNat n).toNat = m := by
  rw [h, UInt8.toNat_ofNat', Nat.mod_eq_of_lt hm]

/-- What is read after a character is what is read after its bytes. -/
lemma decode_encode_append (c : Char) (rest : List UInt8) :
    decode (String.utf8EncodeChar c ++ rest) = (decode rest).map (c :: ·) := by
  have hc : c.val.toNat < 0x110000 := by
    obtain h | h := c.valid
    · exact Nat.lt_trans h (by decide)
    · exact h.2
  have hcontinuation (n : ℕ) : continuation? (.ofNat (n % 64 + 128)) = some (n % 64) :=
    continuation?_eq_some_iff.mpr ⟨Nat.mod_lt n (by decide), rfl⟩
  rw [String.utf8EncodeChar]
  obtain ⟨n, hn⟩ : ∃ n, c.val.toNat = n := ⟨_, rfl⟩
  simp only [hn] at hc ⊢
  split
  next h =>
    have ha : (UInt8.ofNat n).toNat = n := toNat_ofNat_of_lt rfl (by omega)
    rw [List.singleton_append, decode_one (by omega), ha, ← hn]
    exact congrArg (fun c => (decode rest).map (c :: ·)) c.ofNat_toNat
  split
  next h h2 =>
    have ha : (UInt8.ofNat (n / 64 % 32 + 192)).toNat = n / 64 + 192 :=
      toNat_ofNat_of_lt (by omega) (by omega)
    have hs : scalar? 0x80 ((n / 64 + 192 - 0xC0) * 0x40 + n % 64) = some c :=
      scalar?_eq_some_iff.mpr (by omega)
    simp only [List.cons_append, List.nil_append]
    rw [decode_two (by omega) (by omega), ha, hcontinuation, Option.bind_some, hs, Option.bind_some]
  split
  next h h2 h3 =>
    have ha : (UInt8.ofNat (n / 4096 % 16 + 224)).toNat = n / 4096 + 224 :=
      toNat_ofNat_of_lt (by omega) (by omega)
    have hs : scalar? 0x800 ((n / 4096 + 224 - 0xE0) * 0x1000 + n / 64 % 64 * 0x40 + n % 64) =
        some c := scalar?_eq_some_iff.mpr (by omega)
    simp only [List.cons_append, List.nil_append]
    rw [decode_three (by omega) (by omega), ha, hcontinuation, Option.bind_some, hcontinuation,
      Option.bind_some, hs, Option.bind_some]
  next h h2 h3 =>
    have ha : (UInt8.ofNat (n / 262144 % 8 + 240)).toNat = n / 262144 + 240 :=
      toNat_ofNat_of_lt (by omega) (by omega)
    have hs : scalar? 0x10000 ((n / 262144 + 240 - 0xF0) * 0x40000 + n / 4096 % 64 * 0x1000 +
        n / 64 % 64 * 0x40 + n % 64) = some c := scalar?_eq_some_iff.mpr (by omega)
    simp only [List.cons_append, List.nil_append]
    rw [decode_four (by omega) (by omega), ha, hcontinuation, Option.bind_some, hcontinuation,
      Option.bind_some, hcontinuation, Option.bind_some, hs, Option.bind_some]

/-- Characters that were written are read again. -/
lemma decode_encode (cs : List Char) : decode (cs.flatMap String.utf8EncodeChar) = some cs := by
  induction cs with
  | nil => rfl
  | cons c cs ih => rw [List.flatMap_cons, decode_encode_append, ih, Option.map_some]

/-! ### What is read was written -/

/-- A byte whose number is written in another way. -/
lemma ofNat_eq {n : ℕ} {a : UInt8} (h : n = a.toNat) : UInt8.ofNat n = a := by
  rw [h, UInt8.ofNat_toNat]

/-- A text that was read has the bytes from which it was read. -/
lemma encode_of_decode {bs : List UInt8} {cs : List Char} (h : decode bs = some cs) :
    cs.flatMap String.utf8EncodeChar = bs := by
  -- in each case the bytes are the digits of the scalar value to the base 64
  fun_induction decode bs generalizing cs with
  | case1 => cases h; rfl
  | case2 a rest ha ih =>
    obtain ⟨cs', hcs', ⟨⟩⟩ := Option.bind_eq_some_iff.mp h
    have ha : a.toNat < 128 := ha
    have hc : (Char.ofNat a.toNat).val.toNat = a.toNat := by
      rw [Char.ofNat, dif_pos (.inl (by omega))]
      rfl
    rw [List.flatMap_cons, ih hcs', String.utf8EncodeChar, hc]
    rw [if_pos (by omega), UInt8.ofNat_toNat]
    rfl
  | case4 a h1 h2 h3 b rest ih =>
    obtain ⟨x, hx, h⟩ := Option.bind_eq_some_iff.mp h
    obtain ⟨c, hc, h⟩ := Option.bind_eq_some_iff.mp h
    obtain ⟨cs', hcs', ⟨⟩⟩ := Option.bind_eq_some_iff.mp h
    obtain ⟨hx, rfl⟩ := continuation?_eq_some_iff.mp hx
    obtain ⟨hle, hc⟩ := scalar?_eq_some_iff.mp hc
    have ha : 192 ≤ a.toNat := Nat.not_lt.mp h2
    have ha' : a.toNat < 224 := h3
    rw [List.flatMap_cons, ih hcs', String.utf8EncodeChar]
    rw [if_neg (by omega), if_pos (by omega), ofNat_eq (a := a) (by omega),
      show c.val.toNat % 64 = x by omega]
    rfl
  | case6 a h1 h2 h3 h4 b b' rest ih =>
    obtain ⟨x, hx, h⟩ := Option.bind_eq_some_iff.mp h
    obtain ⟨y, hy, h⟩ := Option.bind_eq_some_iff.mp h
    obtain ⟨c, hc, h⟩ := Option.bind_eq_some_iff.mp h
    obtain ⟨cs', hcs', ⟨⟩⟩ := Option.bind_eq_some_iff.mp h
    obtain ⟨hx, rfl⟩ := continuation?_eq_some_iff.mp hx
    obtain ⟨hy, rfl⟩ := continuation?_eq_some_iff.mp hy
    obtain ⟨hle, hc⟩ := scalar?_eq_some_iff.mp hc
    have ha : 224 ≤ a.toNat := Nat.not_lt.mp h3
    have ha' : a.toNat < 240 := h4
    rw [List.flatMap_cons, ih hcs', String.utf8EncodeChar]
    rw [if_neg (by omega), if_neg (by omega), if_pos (by omega), ofNat_eq (a := a) (by omega),
      show c.val.toNat / 64 % 64 = x by omega, show c.val.toNat % 64 = y by omega]
    rfl
  | case8 a h1 h2 h3 h4 h5 b b' b'' rest ih =>
    obtain ⟨x, hx, h⟩ := Option.bind_eq_some_iff.mp h
    obtain ⟨y, hy, h⟩ := Option.bind_eq_some_iff.mp h
    obtain ⟨z, hz, h⟩ := Option.bind_eq_some_iff.mp h
    obtain ⟨c, hc, h⟩ := Option.bind_eq_some_iff.mp h
    obtain ⟨cs', hcs', ⟨⟩⟩ := Option.bind_eq_some_iff.mp h
    obtain ⟨hx, rfl⟩ := continuation?_eq_some_iff.mp hx
    obtain ⟨hy, rfl⟩ := continuation?_eq_some_iff.mp hy
    obtain ⟨hz, rfl⟩ := continuation?_eq_some_iff.mp hz
    obtain ⟨hle, hc⟩ := scalar?_eq_some_iff.mp hc
    have ha : 240 ≤ a.toNat := Nat.not_lt.mp h4
    have ha' : a.toNat < 248 := h5
    rw [List.flatMap_cons, ih hcs', String.utf8EncodeChar]
    rw [if_neg (by omega), if_neg (by omega), if_neg (by omega), ofNat_eq (a := a) (by omega),
      show c.val.toNat / 4096 % 64 = x by omega, show c.val.toNat / 64 % 64 = y by omega,
      show c.val.toNat % 64 = z by omega]
    rfl
  | case3 | case5 | case7 | case9 | case10 => cases h

/-! ### Texts -/

/-- The loop by which the library lists the bytes of an array, with what it has listed so far. -/
lemma toList_loop (bs : ByteArray) (i : ℕ) (before : List UInt8) :
    ByteArray.toList.loop bs i before = before.reverse ++ bs.data.toList.drop i := by
  fun_induction ByteArray.toList.loop bs i before with
  | case1 i before h ih =>
    have hi : i < bs.data.toList.length := by simpa using h
    rw [ih, List.drop_eq_getElem_cons hi]
    simp [ByteArray.get!, h]
  | case2 i before h =>
    have hi : bs.data.toList.length ≤ i := by simpa using Nat.le_of_not_lt h
    rw [List.drop_eq_nil_of_le hi, List.append_nil]

/-- The bytes of a text are those of its characters, one after the other. -/
lemma bytes_ofList (cs : List Char) : bytes (.ofList cs) = cs.flatMap String.utf8EncodeChar := by
  rw [bytes, String.toUTF8, ByteArray.toList, toList_loop]
  exact List.toList_data_toByteArray

/-- Bytes are read as a text if and only if they are the bytes of that text. -/
theorem text?_eq_some_iff {bs : List UInt8} {text : String} :
    text? bs = some text ↔ bytes text = bs := by
  constructor
  · intro h
    obtain ⟨cs, hcs, rfl⟩ := Option.map_eq_some_iff.mp h
    rw [bytes_ofList, encode_of_decode hcs]
  · rintro rfl
    obtain ⟨cs, rfl⟩ : ∃ cs, text = .ofList cs := ⟨text.toList, by simp⟩
    rw [bytes_ofList, text?, decode_encode, Option.map_some]

/-- Bytes are refused if and only if they are the bytes of no text. -/
lemma text?_eq_none_iff {bs : List UInt8} : text? bs = none ↔ ∀ text, bytes text ≠ bs := by
  simp only [Option.eq_none_iff_forall_ne_some, ne_eq, text?_eq_some_iff]

/-! ### A line feed -/

/-- A line feed carries no six bits: it is no part of another character. -/
lemma continuation?_lineFeed : continuation? Text.lineFeed = none := by decide

/-- A line feed is read as a character of its own, also behind a character that breaks off. -/
lemma decode_append_lineFeed (bytes : List UInt8) :
    decode (bytes ++ [Text.lineFeed]) = (decode bytes).map (· ++ ['\n']) := by
  have hcons (c : Char) (text : Option (List Char)) :
      (text.map (· ++ ['\n'])).map (c :: ·) = (text.map (c :: ·)).map (· ++ ['\n']) := by
    cases text <;> rfl
  induction bytes using decode.induct with
  | case1 => decide
  | case2 a rest h ih =>
    have ha : a.toNat < 128 := h
    rw [List.cons_append, decode_one ha, decode_one ha, ih, hcons]
  | case3 a rest h h' =>
    rw [List.cons_append, decode.eq_def, decode.eq_def (a :: rest)]
    simp [h, h']
  | case4 a h1 h2 h3 b rest ih =>
    have ha : 192 ≤ a.toNat := Nat.not_lt.mp h2
    simp only [List.cons_append, decode_two ha h3, ih, hcons, Option.map_bind, Function.comp_def]
  | case5 a rest h1 h2 h3 hrest =>
    -- the line feed is where the second byte should be
    rcases rest with _ | ⟨b, rest⟩
    · simp [decode, h1, h2, h3, continuation?_lineFeed]
    · exact (hrest b rest rfl).elim
  | case6 a h1 h2 h3 h4 b b' rest ih =>
    have ha : 224 ≤ a.toNat := Nat.not_lt.mp h3
    simp only [List.cons_append, decode_three ha h4, ih, hcons, Option.map_bind, Function.comp_def]
  | case7 a rest h1 h2 h3 h4 hrest =>
    rcases rest with _ | ⟨b, _ | ⟨b', rest⟩⟩
    · simp [decode, h1, h2, h3, h4]
    · simp [decode, h1, h2, h3, h4, continuation?_lineFeed]
    · exact (hrest b b' rest rfl).elim
  | case8 a h1 h2 h3 h4 h5 b b' b'' rest ih =>
    have ha : 240 ≤ a.toNat := Nat.not_lt.mp h4
    simp only [List.cons_append, decode_four ha h5, ih, hcons, Option.map_bind, Function.comp_def]
  | case9 a rest h1 h2 h3 h4 h5 hrest =>
    rcases rest with _ | ⟨b, _ | ⟨b', _ | ⟨b'', rest⟩⟩⟩
    · simp [decode, h1, h2, h3, h4, h5]
    · simp [decode, h1, h2, h3, h4, h5]
    · simp [decode, h1, h2, h3, h4, h5, continuation?_lineFeed]
    · exact (hrest b b' b'' rest rfl).elim
  | case10 a rest h1 h2 h3 h4 h5 =>
    rw [List.cons_append, decode.eq_def, decode.eq_def (a :: rest)]
    simp [h1, h2, h3, h4, h5]

end Duelist.Utf8
