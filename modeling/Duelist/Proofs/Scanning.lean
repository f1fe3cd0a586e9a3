import Duelist.Json.Token
import Duelist.Proofs.Grammar
/-!
# Scanning

The scanner finds the tokens of what the grammar allows: a string literal is one token with the text
that it stands for (`Json.scan_quotes`), and so is a word, if what comes next does not belong to it
(`Json.scan_word`), with the number that it writes (`Json.ofWord?_integer`,
`Json.ofWord?_of_isDecimal`).
-/

namespace Duelist.Json

/-! ### String literals are read -/

/-- A hexadecimal digit is read with its value. -/
lemma hexDigit?_of_isHexDigit {n : ℕ} {c : Char} (h : IsHexDigit n c) : hexDigit? c = some n := by
  have hsmall : ∀ n < 16, "0123456789abcdef".toList[n]?.bind hexDigit? = some n := by decide
  have hcapital : ∀ n < 16, "0123456789ABCDEF".toList[n]?.bind hexDigit? = some n := by decide
  obtain h | h := h
  · have hdigit := hsmall n (List.getElem?_eq_some_iff.mp h).1
    rwa [h, Option.bind_some] at hdigit
  · have hdigit := hcapital n (List.getElem?_eq_some_iff.mp h).1
    rwa [h, Option.bind_some] at hdigit

/-- A short escape is read as the character that it stands for. -/
lemma shortEscape?_of_mem {c e : Char} (h : (e, c) ∈ shortEscapes) : shortEscape? e = some c := by
  have hall : ∀ x ∈ shortEscapes, shortEscape? x.1 = some x.2 := by decide
  exact hall _ h

/-- No short escape is the letter of a code unit. -/
lemma ne_of_mem_shortEscapes {c e : Char} (h : (e, c) ∈ shortEscapes) : e ≠ 'u' := by
  have hall : ∀ x ∈ shortEscapes, x.1 ≠ 'u' := by decide
  exact hall _ h

/-- Four hexadecimal digits are read as one code unit. -/
lemma unit?_of_isUnit {n : ℕ} {a b c d : Char} (h : IsUnit n [a, b, c, d]) :
    unit? a b c d = some n := by
  cases h with
  | digits ha hb hc hd =>
    rw [unit?, hexDigit?_of_isHexDigit ha, hexDigit?_of_isHexDigit hb, hexDigit?_of_isHexDigit hc,
      hexDigit?_of_isHexDigit hd]
    rfl

section

variable (seen : List Piece) (cs : List Char)

/-- A quotation mark ends a string. -/
lemma scan_literal_quote :
    scan (.literal seen) ('\"' :: cs) =
      (scan .gap cs).map (.string (Piece.text? seen.reverse) :: ·) := by
  rw [scan, Option.map_eq_bind]
  rfl

/-- A character that stands for itself is a piece of the string. -/
lemma scan_literal_plain {c : Char} (hc : ' ' ≤ c) (hquote : c ≠ '\"') (hbackslash : c ≠ '\\') :
    scan (.literal seen) (c :: cs) = scan (.literal (.char c :: seen)) cs := by
  have hnot : ¬(c < ' ' ∨ c = '\\') := by
    rintro (h | h)
    · exact absurd h (Char.not_lt.mpr hc)
    · exact hbackslash h
  rw [scan, if_neg hnot]
  · exact hquote
  · exact fun _ _ _ _ _ h _ => hbackslash h
  · exact fun _ _ h _ => hbackslash h

/-- So is one that is escaped by a single letter. -/
lemma scan_literal_short {c e : Char} (h : (e, c) ∈ shortEscapes) :
    scan (.literal seen) ('\\' :: e :: cs) = scan (.literal (.char c :: seen)) cs := by
  rw [scan, shortEscape?_of_mem h, Option.bind_eq_bind, Option.bind_some]
  exact fun _ _ _ _ _ hu _ => ne_of_mem_shortEscapes h hu

/-- A code unit is a piece of the string as well. -/
lemma scan_literal_unit {n : ℕ} {digits : List Char} (h : IsUnit n digits) :
    scan (.literal seen) ('\\' :: 'u' :: (digits ++ cs)) =
      scan (.literal (.unit n :: seen)) cs := by
  cases h with
  | digits ha hb hc hd =>
    simp only [List.cons_append, List.nil_append]
    rw [scan, unit?_of_isUnit (.digits ha hb hc hd), Option.bind_eq_bind, Option.bind_some]

end

/-- The scanner takes a literal to its closing quote. -/
lemma scan_literal {pieces : List Piece} {cs : List Char} (h : Spells pieces cs)
    (seen : List Piece) (rest : List Char) :
    scan (.literal seen) (cs ++ '\"' :: rest) =
      (scan .gap rest).map (.string (Piece.text? (seen.reverse ++ pieces)) :: ·) := by
  induction h generalizing seen with
  | nil => rw [List.nil_append, scan_literal_quote, List.append_nil]
  | plain hc hquote hbackslash _ ih =>
    rw [List.cons_append, scan_literal_plain _ _ hc hquote hbackslash, ih]
    simp
  | short he _ ih =>
    rw [List.cons_append, List.cons_append, scan_literal_short _ _ he, ih]
    simp
  | unit hn _ ih =>
    rw [List.cons_append, List.cons_append, List.append_assoc, scan_literal_unit _ _ hn, ih]
    simp

/-! ### What a literal stands for -/

/-- Characters are not surrogates, and there is an end to them. -/
lemma toNat_lt (c : Char) : c.toNat < 0xD800 ∨ 0xDFFF < c.toNat ∧ c.toNat < 0x110000 :=
  c.valid

/-- A code unit that is no surrogate. -/
lemma chars?_unit (c : Char) (hc : c.toNat < 0x10000) (pieces : List Piece) :
    Piece.chars? (.unit c.toNat :: pieces) = (Piece.chars? pieces).map (c :: ·) := by
  have := toNat_lt c
  have hhigh : isHighSurrogate c.toNat = false := by
    simp [isHighSurrogate]
    omega
  have hlow : isLowSurrogate c.toNat = false := by
    simp [isLowSurrogate]
    omega
  rw [Piece.chars?.eq_def]
  simp [hhigh, hlow, Char.ofNat_toNat]

/-- A pair of surrogates. -/
lemma chars?_pair (c : Char) (hc : 0x10000 ≤ c.toNat) (pieces : List Piece) :
    Piece.chars? (.unit (0xD800 + (c.toNat - 0x10000) / 0x400) ::
        .unit (0xDC00 + (c.toNat - 0x10000) % 0x400) :: pieces) =
      (Piece.chars? pieces).map (c :: ·) := by
  have := toNat_lt c
  have hhigh : isHighSurrogate (0xD800 + (c.toNat - 0x10000) / 0x400) = true := by
    simp [isHighSurrogate]
    omega
  have hlow : isLowSurrogate (0xDC00 + (c.toNat - 0x10000) % 0x400) = true := by
    simp [isLowSurrogate]
    omega
  have hsum : 0x10000 + (0xD800 + (c.toNat - 0x10000) / 0x400 - 0xD800) * 0x400 +
      (0xDC00 + (c.toNat - 0x10000) % 0x400 - 0xDC00) = c.toNat := by omega
  rw [Piece.chars?, if_pos hhigh, if_pos hlow, hsum, Char.ofNat_toNat]
  rfl

/-- What pieces stand for is what is read from them. -/
lemma chars?_of_standsFor {pieces : List Piece} {text : List Char} (h : StandsFor pieces text) :
    Piece.chars? pieces = some text := by
  induction h with
  | nil => rfl
  | char c _ ih => rw [Piece.chars?, ih]; rfl
  | unit c hc _ ih => rw [chars?_unit c hc, ih, Option.map_some]
  | pair c hc _ ih => rw [chars?_pair c hc, ih, Option.map_some]

/-- A number that may be a character is the number of that character. -/
lemma toNat_ofNat {n : ℕ} (h : n.isValidChar) : (Char.ofNat n).toNat = n := by
  rw [Char.ofNat, dif_pos h]
  rfl

/-- A pair of surrogates stands for the character whose number they share out. -/
lemma StandsFor.surrogates {n m : ℕ} (hhigh : isHighSurrogate n) (hlow : isLowSurrogate m)
    {pieces : List Piece} {cs : List Char} (h : StandsFor pieces cs) :
    StandsFor (.unit n :: .unit m :: pieces)
      (.ofNat (0x10000 + (n - 0xD800) * 0x400 + (m - 0xDC00)) :: cs) := by
  simp only [isHighSurrogate, isLowSurrogate, Bool.and_eq_true, decide_eq_true_eq] at hhigh hlow
  obtain ⟨code, hcode⟩ : ∃ code, code = 0x10000 + (n - 0xD800) * 0x400 + (m - 0xDC00) := ⟨_, rfl⟩
  have hc : (Char.ofNat code).toNat = code := toNat_ofNat (.inr (by omega))
  have hpair := StandsFor.pair (.ofNat code) (by omega) h
  have hn : 0xD800 + (code - 0x10000) / 0x400 = n := by omega
  have hm : 0xDC00 + (code - 0x10000) % 0x400 = m := by omega
  rw [hc, hn, hm] at hpair
  rwa [← hcode]

/-- A code unit that is no surrogate stands for the character of this number. -/
lemma StandsFor.noSurrogate {n : ℕ} (hn : n < 0x10000) (hhigh : ¬isHighSurrogate n)
    (hlow : ¬isLowSurrogate n) {pieces : List Piece} {cs : List Char} (h : StandsFor pieces cs) :
    StandsFor (.unit n :: pieces) (.ofNat n :: cs) := by
  simp only [isHighSurrogate, isLowSurrogate, Bool.and_eq_true, decide_eq_true_eq] at hhigh hlow
  have hvalid : n.isValidChar := by
    by_cases h : n < 0xD800
    · exact .inl h
    · exact .inr (by omega)
  have hc : (Char.ofNat n).toNat = n := toNat_ofNat hvalid
  have hunit := StandsFor.unit (.ofNat n) (by omega) h
  rwa [hc] at hunit

/-- Conversely, if something is read from pieces whose units have 16 bits, that is what they stand
for. -/
lemma standsFor_of_chars? {pieces : List Piece} (hunits : ∀ n, .unit n ∈ pieces → n < 0x10000)
    {text : List Char} (h : Piece.chars? pieces = some text) : StandsFor pieces text := by
  fun_induction Piece.chars? pieces generalizing text with
  | case1 => cases h; exact .nil
  | case2 c rest ih =>
    obtain ⟨cs, hcs, rfl⟩ := Option.map_eq_some_iff.mp h
    exact .char c (ih (fun n hn => hunits n (List.mem_cons_of_mem _ hn)) hcs)
  | case3 n hhigh m rest hlow ih =>
    obtain ⟨cs, hcs, rfl⟩ := Option.map_eq_some_iff.mp h
    exact .surrogates hhigh hlow (ih (fun k hk => hunits k (by simp [hk])) hcs)
  | case4 | case5 | case6 => cases h
  | case7 n rest hhigh hlow ih =>
    obtain ⟨cs, hcs, rfl⟩ := Option.map_eq_some_iff.mp h
    have hrest := ih (fun k hk => hunits k (List.mem_cons_of_mem _ hk)) hcs
    exact .noSurrogate (hunits n List.mem_cons_self) hhigh hlow hrest

/-- A hexadecimal digit has a value below 16. -/
lemma lt_of_isHexDigit {n : ℕ} {c : Char} (h : IsHexDigit n c) : n < 16 := by
  obtain h | h := h
  · exact (List.getElem?_eq_some_iff.mp h).1
  · exact (List.getElem?_eq_some_iff.mp h).1

/-- Four digits write nothing but code units. -/
lemma lt_of_mem_of_spells {pieces : List Piece} {cs : List Char} (h : Spells pieces cs) {n : ℕ}
    (hn : .unit n ∈ pieces) : n < 0x10000 := by
  induction h with
  | nil => cases hn
  | plain _ _ _ _ ih | short _ _ ih => exact ih (by simpa using hn)
  | unit hunit _ ih =>
    obtain hn | hn := List.mem_cons.mp hn
    · cases hn
      cases hunit with
      | digits ha hb hc hd =>
        have := lt_of_isHexDigit ha
        have := lt_of_isHexDigit hb
        have := lt_of_isHexDigit hc
        have := lt_of_isHexDigit hd
        omega
    · exact ih hn

/-! ### Tokens are found -/

/-- Where a token is to begin, the first character decides which. -/
lemma scan_gap_cons (c : Char) (cs : List Char) :
    scan .gap (c :: cs) = (start? c).bind fun x => (scan x.2 cs).map (x.1 ++ ·) := by
  rw [scan]
  cases start? c with
  | none => rfl
  | some x => simp only [Option.map_eq_bind, Option.bind_some]; rfl

/-- White space between tokens is passed over. -/
lemma scan_space {gap : List Char} (h : IsSpace gap) (cs : List Char) :
    scan .gap (gap ++ cs) = scan .gap cs := by
  induction gap with
  | nil => rfl
  | cons c gap ih =>
    have hc : isGap c = true := by
      have hall : [' ', '\t', '\n', '\r'].all isGap = true := by decide
      exact List.all_eq_true.mp hall c (h c List.mem_cons_self)
    rw [List.cons_append, scan_gap_cons, start?, if_pos hc]
    simpa using ih fun c hc => h c (List.mem_cons_of_mem _ hc)

/-- What stands between quotation marks is scanned as a string. -/
lemma scan_quotes {text : Option String} {cs : List Char} (h : Quotes text cs) (rest : List Char) :
    scan .gap (cs ++ rest) = (scan .gap rest).map (.string text :: ·) := by
  have hscan {pieces : List Piece} {cs : List Char} (h : Spells pieces cs) :
      scan .gap ('\"' :: (cs ++ ['\"']) ++ rest) =
        (scan .gap rest).map (.string (Piece.text? pieces) :: ·) := by
    have hstart : start? '\"' = some ([], .literal []) := rfl
    rw [List.cons_append, List.append_assoc, scan_gap_cons, hstart, Option.bind_some]
    simpa using scan_literal h [] rest
  cases h with
  | @text s pieces cs h hs =>
    rw [hscan h, Piece.text?, chars?_of_standsFor hs, Option.map_some, String.ofList_toList]
  | @unpaired pieces cs h hs =>
    have hnone : Piece.text? pieces = none := by
      rw [Piece.text?, Option.map_eq_none_iff, Option.eq_none_iff_forall_ne_some]
      exact fun text htext =>
        hs text (standsFor_of_chars? (fun n hn => lt_of_mem_of_spells h hn) htext)
    rw [hscan h, hnone]

/-- A mark is scanned as a token of its own. -/
lemma scan_mark {c : Char} {t : Token} (h : start? c = some ([t], .gap)) (rest : List Char) :
    scan .gap (c :: rest) = (scan .gap rest).map (t :: ·) := by
  rw [scan_gap_cons, h]
  rfl

/-- What comes next does not belong to a word. -/
def IsApart (rest : List Char) : Prop :=
  ∀ c ∈ rest.head?, isWordChar c = false

/-- A word ends where something comes that does not belong to it. -/
lemma scan_word_apart (seen : List Char) {rest : List Char} (h : IsApart rest) :
    scan (.word seen) rest =
      (Token.ofWord? seen.reverse).bind fun t => (scan .gap rest).map (t :: ·) := by
  cases rest with
  | nil =>
    rw [scan, scan]
    cases Token.ofWord? seen.reverse <;> rfl
  | cons c rest =>
    rw [scan_gap_cons, scan, if_neg (by simp [h c rfl])]
    cases Token.ofWord? seen.reverse with
    | none => rfl
    | some t =>
      cases start? c with
      | none => rfl
      | some x =>
        simp only [Option.bind_some, Option.bind_eq_bind]
        cases scan x.2 rest <;> rfl

/-- A word is scanned to its end, if the rest stands apart from it. -/
lemma scan_word {word : List Char} {t : Token} (hne : word ≠ [])
    (hword : ∀ c ∈ word, isWordChar c) (ht : Token.ofWord? word = some t)
    {rest : List Char} (hrest : IsApart rest) :
    scan .gap (word ++ rest) = (scan .gap rest).map (t :: ·) := by
  obtain ⟨c, word, rfl⟩ := List.exists_cons_of_ne_nil hne
  simp only [List.mem_cons, forall_eq_or_imp] at hword
  -- in the midst of a word, all that was seen of it belongs to the token
  have hgo (seen : List Char) : scan (.word seen) (word ++ rest) =
      (Token.ofWord? (seen.reverse ++ word)).bind fun t => (scan .gap rest).map (t :: ·) := by
    clear hne ht
    induction word generalizing seen with
    | nil => rw [List.nil_append, scan_word_apart seen hrest, List.append_nil]
    | cons d word ih =>
      simp only [List.mem_cons, forall_eq_or_imp] at hword
      rw [List.cons_append, scan, if_pos hword.2.1, ih ⟨hword.1, hword.2.2⟩]
      simp
  have hstart : start? c = some ([], .word [c]) := by
    have hgap : isGap c = false := by
      refine Bool.eq_false_iff.mpr fun h => ?_
      simp only [isGap, Bool.or_eq_true, beq_iff_eq] at h
      obtain ((rfl | rfl) | rfl) | rfl := h <;> exact absurd hword.1 (by decide)
    have hquote : c ≠ '\"' := by
      rintro rfl
      exact absurd hword.1 (by decide)
    rw [start?, hgap, if_neg Bool.false_ne_true, if_neg hquote, if_pos hword.1]
  have hword := hgo [c]
  rw [List.reverse_singleton, List.singleton_append, ht] at hword
  rw [List.cons_append, scan_gap_cons, hstart, Option.bind_some, hword]
  exact Option.map_id'

/-! ### Words -/

/-- A digit may belong to a word. -/
lemma isWordChar_of_isDigit {c : Char} (h : c.isDigit) : isWordChar c := by
  simp [isWordChar, Char.isAlphanum, h]

/-- The first character tells a number from a name. -/
lemma ofWord?_cons {c : Char} (hc : c.isDigit ∨ c = '-') (cs : List Char) :
    Token.ofWord? (c :: cs) = (Number.ofWord? (c :: cs)).map .number := by
  have hne {d : Char} (hd : d.isDigit = false ∧ d ≠ '-') (ds : List Char) : c :: cs ≠ d :: ds := by
    rintro ⟨⟩
    simp [hd] at hc
  rw [Token.ofWord?, if_neg (hne (by decide) _), if_neg (hne (by decide) _),
    if_neg (hne (by decide) _)]

/-- The whole part of a number consists of digits. -/
lemma IsWholePart.areDigits {whole : List Char} (h : IsWholePart whole) : AreDigits whole := by
  cases h with
  | zero => exact ⟨by simp, List.forall_mem_singleton.mpr rfl⟩
  | digits _ h => exact h

/-- A whole part is one. -/
lemma isWhole_of_isWholePart {whole : List Char} (h : IsWholePart whole) :
    isWhole whole = true := by
  cases h with
  | zero => rfl
  | @digits c cs hc h =>
    have hall : (c :: cs).all Char.isDigit = true := List.all_eq_true.mpr h.2
    rw [isWhole]
    · simp [hc, hall]
    · exact fun h _ => hc h

/-- Digits end before what is none. -/
lemma span_digits {digits rest : List Char} (hdigits : ∀ c ∈ digits, c.isDigit)
    (hrest : ∀ c ∈ rest.head?, c.isDigit = false) :
    (digits ++ rest).takeWhile Char.isDigit = digits ∧
      (digits ++ rest).dropWhile Char.isDigit = rest := by
  rw [List.takeWhile_append_of_pos hdigits, List.dropWhile_append_of_pos hdigits]
  cases rest with
  | nil => simp
  | cons c rest => simp [hrest c rfl]

/-- A number is cut behind the digits of its whole part. -/
lemma ofWord?_number {whole tail : List Char} (hwhole : IsWholePart whole)
    (htail : ∀ c ∈ tail.head?, c.isDigit = false) :
    Token.ofWord? (whole ++ tail) = (Number.ofParts? false whole tail).map .number ∧
      Token.ofWord? ('-' :: (whole ++ tail)) = (Number.ofParts? true whole tail).map .number := by
  obtain ⟨htake, hdrop⟩ := span_digits hwhole.areDigits.2 htail
  constructor
  · obtain ⟨hne, hdigits⟩ := hwhole.areDigits
    obtain ⟨c, whole, rfl⟩ := List.exists_cons_of_ne_nil hne
    have hc := hdigits c List.mem_cons_self
    have hminus (cs : List Char) : c :: whole ++ tail ≠ '-' :: cs := by
      rintro ⟨⟩
      exact absurd hc (by decide)
    rw [List.cons_append, ofWord?_cons (.inl hc), ← List.cons_append, Number.ofWord?, htake, hdrop]
    exact hminus
  · rw [ofWord?_cons (.inr rfl), Number.ofWord?, htake, hdrop]

/-- Behind the whole part of a decimal number comes no further digit of it. -/
lemma head?_fraction_append {fraction exponent : List Char} (hfraction : IsFraction fraction)
    (hexponent : IsExponentPart exponent) :
    ∀ c ∈ (fraction ++ exponent).head?, c.isDigit = false := by
  cases hfraction with
  | point h => simp
  | nil =>
    cases hexponent with
    | nil => simp
    | exponent he hsign h =>
      obtain rfl | rfl := he
      · simp
      · simp

/-- Digits with or without a sign are an exponent. -/
lemma isExponent_of_areDigits {sign digits : List Char}
    (hsign : sign = [] ∨ sign = ['+'] ∨ sign = ['-']) (h : AreDigits digits) :
    isExponent (sign ++ digits) = true := by
  have hdigits : (Text.digits? digits).isSome := by
    have hall : digits.all Char.isDigit = true := List.all_eq_true.mpr h.2
    simp [Text.digits?, hall, h.1]
  obtain rfl | rfl | rfl := hsign
  · obtain ⟨hne, hall⟩ := h
    rw [List.nil_append]
    rw [isExponent]
    · exact hdigits
    · rintro cs rfl
      exact absurd (hall '+' List.mem_cons_self) (by decide)
    · rintro cs rfl
      exact absurd (hall '-' List.mem_cons_self) (by decide)
  · exact hdigits
  · exact hdigits

/-- A fraction and an exponent make up the tail of a decimal number. -/
lemma isTail_append {fraction exponent : List Char} (hfraction : IsFraction fraction)
    (hexponent : IsExponentPart exponent) : isTail (fraction ++ exponent) = true := by
  cases hfraction with
  | nil =>
    cases hexponent with
    | nil => rfl
    | exponent he hsign h =>
      have hrest := isExponent_of_areDigits hsign h
      obtain rfl | rfl := he
      · simp [isTail, hrest]
      · simp [isTail, hrest]
  | @point digits h =>
    have hhead := head?_fraction_append .nil hexponent
    obtain ⟨htake, hdrop⟩ := span_digits h.2 hhead
    cases hexponent with
    | nil =>
      simp only [List.append_nil] at htake hdrop
      simp [isTail, htake, hdrop, h.1]
    | exponent he hsign h' =>
      have hrest := isExponent_of_areDigits hsign h'
      simp only [List.nil_append] at htake hdrop
      obtain rfl | rfl := he
      · simp [isTail, hrest, htake, hdrop, h.1]
      · simp [isTail, hrest, htake, hdrop, h.1]

/-- The token of a number that is no integer. -/
lemma ofWord?_of_isDecimal {cs : List Char} (h : IsDecimal cs) :
    Token.ofWord? cs = some (.number (.decimal (.ofList cs))) := by
  obtain @⟨sign, whole, fraction, exponent, hsign, hwhole, hfraction, hexponent, h⟩ := h
  obtain ⟨hplain, hminus⟩ := ofWord?_number hwhole (head?_fraction_append hfraction hexponent)
  have hvalid : (isWhole whole && isTail (fraction ++ exponent)) = true := by
    rw [isWhole_of_isWholePart hwhole, isTail_append hfraction hexponent, Bool.and_self]
  obtain rfl | rfl := hsign
  · have htail : fraction ++ exponent ≠ [] := by
      refine h.resolve_right fun h => ?_
      rw [List.nil_append] at h
      exact absurd (hwhole.areDigits.2 '-' (h ▸ List.mem_cons_self)) (by decide)
    rw [List.nil_append, hplain, Number.ofParts?, if_pos hvalid,
      if_neg (by simp [List.isEmpty_iff, htail])]
    rfl
  · have htail : fraction ++ exponent = [] → Text.valueOfDigits whole = 0 := by
      intro htail
      have hzero : whole = ['0'] := (List.cons.inj (h.resolve_left (absurd htail))).2
      rw [hzero]
      rfl
    rw [List.append_assoc, List.singleton_append, hminus, Number.ofParts?, if_pos hvalid,
      if_neg (by simpa [List.isEmpty_iff] using htail)]
    rfl

/-- The digits of a number have no zero in front. -/
lemma isWholePart_toDigits (k : ℕ) : IsWholePart (Nat.toDigits 10 k) := by
  have hhead : 0 < k → ∀ c ∈ (Nat.toDigits 10 k).head?, c ≠ '0' := by
    induction k using Nat.strongRecOn with
    | _ k ih =>
      intro hk
      rw [Nat.toDigits_eq_if (by decide)]
      split
      next hlt =>
        have hsmall : ∀ k < 10, 0 < k → k.digitChar ≠ '0' := by decide
        simpa using hsmall k hlt hk
      next hge =>
        rw [List.head?_append, List.head?_eq_some_head Nat.toDigits_ne_nil]
        intro c hc
        refine ih (k / 10) (by omega) (by omega) c ?_
        rw [List.head?_eq_some_head Nat.toDigits_ne_nil]
        exact hc
  have hdigits : AreDigits (Nat.toDigits 10 k) :=
    ⟨Nat.toDigits_ne_nil, fun c hc => Nat.isDigit_of_mem_toDigits (by decide) (by decide) hc⟩
  obtain rfl | hk := Nat.eq_zero_or_pos k
  · exact .zero
  · obtain ⟨c, cs, hcs⟩ := List.exists_cons_of_ne_nil hdigits.1
    rw [hcs] at hdigits ⊢
    exact .digits (hhead hk c (by rw [hcs]; rfl)) hdigits

/-- An integer in decimal. -/
lemma toList_toString_int (n : Int) : (toString n).toList =
    if 0 ≤ n then Nat.toDigits 10 n.toNat else '-' :: Nat.toDigits 10 (-n).toNat := by
  have h : toString n = n.repr := rfl
  rw [h, Int.repr_eq_if]
  split
  · rw [Nat.toList_repr]
  · rw [String.toList_append, Nat.toList_repr]
    rfl

/-- The token of an integer. -/
lemma ofWord?_integer (n : Int) :
    Token.ofWord? (toString n).toList = some (.number (.integer n)) := by
  have hvalue (k : ℕ) : Text.valueOfDigits (Nat.toDigits 10 k) = k :=
    Nat.ofDigitChars_toDigits (by decide) (by decide)
  have hvalid (k : ℕ) : (isWhole (Nat.toDigits 10 k) && isTail []) = true := by
    rw [isWhole_of_isWholePart (isWholePart_toDigits k)]
    rfl
  have hnone : ∀ c ∈ ([] : List Char).head?, c.isDigit = false := by simp
  have hword (k : ℕ) := ofWord?_number (isWholePart_toDigits k) hnone
  simp only [List.append_nil] at hword
  rw [toList_toString_int]
  split
  next h =>
    rw [(hword _).1, Number.ofParts?, if_pos (hvalid _), if_pos (by simp), hvalue]
    simp [Int.toNat_of_nonneg h]
  next h =>
    rw [(hword _).2, Number.ofParts?, if_pos (hvalid _), hvalue, if_pos (by simp; omega)]
    simp
    omega

/-- A decimal number is not empty. -/
lemma IsDecimal.ne_nil {cs : List Char} (h : IsDecimal cs) : cs ≠ [] := by
  obtain @⟨sign, whole, fraction, exponent, hsign, hwhole, hfraction, hexponent, -⟩ := h
  simp [hwhole.areDigits.1]

/-- Numbers consist of the characters of words. -/
lemma isWordChar_of_isDecimal {cs : List Char} (h : IsDecimal cs) : ∀ c ∈ cs, isWordChar c := by
  have hdigits {cs : List Char} (h : AreDigits cs) : ∀ c ∈ cs, isWordChar c := fun c hc =>
    isWordChar_of_isDigit (h.2 c hc)
  obtain @⟨sign, whole, fraction, exponent, hsign, hwhole, hfraction, hexponent, -⟩ := h
  intro c hc
  simp only [List.mem_append] at hc
  obtain (hc | hc) | hc | hc := hc
  · obtain rfl | rfl := hsign
    · cases hc
    · obtain rfl := List.mem_singleton.mp hc
      rfl
  · exact hdigits hwhole.areDigits c hc
  · cases hfraction with
    | nil => cases hc
    | point h =>
      obtain rfl | hc := List.mem_cons.mp hc
      · rfl
      · exact hdigits h c hc
  · cases hexponent with
    | nil => cases hc
    | exponent he hsign h =>
      simp only [List.mem_cons, List.mem_append] at hc
      obtain rfl | hc | hc := hc
      · obtain rfl | rfl := he <;> rfl
      · obtain rfl | rfl | rfl := hsign
        · cases hc
        · obtain rfl := List.mem_singleton.mp hc
          rfl
        · obtain rfl := List.mem_singleton.mp hc
          rfl
      · exact hdigits h c hc

/-- The characters of an integer may all belong to a word. -/
lemma isWordChar_of_mem_toString {n : Int} {c : Char} (h : c ∈ (toString n).toList) :
    isWordChar c := by
  have hdigits {k : ℕ} (h : c ∈ Nat.toDigits 10 k) : isWordChar c :=
    isWordChar_of_isDigit (Nat.isDigit_of_mem_toDigits (by decide) (by decide) h)
  rw [toList_toString_int] at h
  split at h
  · exact hdigits h
  · obtain rfl | h := List.mem_cons.mp h
    · rfl
    · exact hdigits h

end Duelist.Json
