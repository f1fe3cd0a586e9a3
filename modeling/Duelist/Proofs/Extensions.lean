import Duelist.Proofs.Encoding
import Duelist.Solution.Extension
import Mathlib.Data.List.Basic
import Mathlib.Data.List.TakeWhile
/-!
# Extensions

How the language of a solution is told from the path of its file. All that matters is the last name
of the path (`Path.EndsIn`), behind which there may be slashes and components that are a single
dot; and of the name, all that matters is what follows its last dot, in whatever case its ASCII
letters are. Bytes that are lowered are read as the lowered text, and are refused if they were
refused before (`Utf8.decode_lowered`), so that the case of the letters makes no difference to a
refusal, either.

The main statement is `Language.told_by_last_name`.
-/

namespace Duelist

/-! ### The case of letters -/

namespace Utf8

/-- A byte with an ASCII letter in lower case. -/
def loweredByte (b : UInt8) : UInt8 :=
  if 65 ≤ b ∧ b ≤ 90 then b + 32 else b

/-- Bytes with ASCII letters in lower case. -/
def lowered (bytes : List UInt8) : List UInt8 :=
  bytes.map loweredByte

/-- A byte of a longer character is no letter, and stays as it is. -/
lemma loweredByte_of_le {b : UInt8} (h : 128 ≤ b.toNat) : loweredByte b = b := by
  refine if_neg fun h' => ?_
  have hle : b.toNat ≤ 90 := h'.2
  omega

/-- The lowered byte of a character of one byte is the lowered character. There are 128 of them,
which are gone through. -/
lemma toNat_loweredByte {b : UInt8} (h : b.toNat < 128) : (loweredByte b).toNat < 128 ∧
    Char.ofNat (loweredByte b).toNat = (Char.ofNat b.toNat).toLower := by
  have hall : ∀ n < 128, (loweredByte (.ofNat n)).toNat < 128 ∧
      Char.ofNat (loweredByte (.ofNat n)).toNat = (Char.ofNat n).toLower := by decide
  simpa using hall b.toNat h

/-- Beyond ASCII no letter is lowered. -/
lemma toLower_of_le {c : Char} (h : 128 ≤ c.val.toNat) : c.toLower = c := by
  refine dif_neg fun h' => ?_
  have hle : c.val.toNat ≤ 90 := h'.2
  omega

/-- What is no letter stays as it is. -/
lemma continuation?_loweredByte (b : UInt8) : continuation? (loweredByte b) = continuation? b := by
  by_cases h : b.toNat < 128
  · have hnone {b : UInt8} (h : b.toNat < 128) : continuation? b = none := by
      refine if_neg fun h' => ?_
      have hle : 128 ≤ b.toNat := h'.1
      omega
    rw [hnone h, hnone (toNat_loweredByte h).1]
  · rw [loweredByte_of_le (by omega)]

/-- A character of several bytes is no ASCII letter. -/
lemma map_toLower_scalar? {least : ℕ} (h : 128 ≤ least) (n : ℕ) (text : Option (List Char)) :
    ((scalar? least n).bind fun c => (text.map (List.map Char.toLower)).map (c :: ·)) =
      ((scalar? least n).bind fun c => text.map (c :: ·)).map (List.map Char.toLower) := by
  cases hc : scalar? least n with
  | none => rfl
  | some c =>
    obtain ⟨hle, hval⟩ := scalar?_eq_some_iff.mp hc
    have hlower : c.toLower = c := toLower_of_le (by omega)
    cases text with
    | none => rfl
    | some cs => simp [hlower]

/-- Bytes are lowered one by one. -/
lemma lowered_cons (b : UInt8) (bs : List UInt8) :
    lowered (b :: bs) = loweredByte b :: lowered bs := rfl

/-- Lowered bytes are read as the lowered text. -/
lemma decode_lowered (bs : List UInt8) :
    decode (lowered bs) = (decode bs).map (List.map Char.toLower) := by
  -- the first byte says how many others belong to it
  induction bs using decode.induct with
  | case1 => rfl
  | case2 a rest h ih =>
    have ha : a.toNat < 128 := h
    obtain ⟨hlt, hchar⟩ := toNat_loweredByte ha
    rw [lowered_cons, decode_one hlt, decode_one ha, hchar, ih]
    cases decode rest <;> rfl
  | case3 a rest h h' =>
    have ha : 128 ≤ a.toNat := Nat.not_lt.mp h
    rw [lowered_cons, loweredByte_of_le ha, decode.eq_def, decode.eq_def (a :: rest)]
    simp [h, h']
  | case4 a h1 h2 h3 b rest ih =>
    have ha : 192 ≤ a.toNat := Nat.not_lt.mp h2
    rw [lowered_cons, lowered_cons, loweredByte_of_le (by omega), decode_two ha h3,
      decode_two ha h3, continuation?_loweredByte, ih, Option.map_bind]
    refine Option.bind_congr fun x _ => ?_
    rw [Function.comp_apply]
    exact map_toLower_scalar? (by decide) _ _
  | case6 a h1 h2 h3 h4 b b' rest ih =>
    have ha : 224 ≤ a.toNat := Nat.not_lt.mp h3
    simp only [lowered_cons]
    rw [loweredByte_of_le (by omega), decode_three ha h4, decode_three ha h4,
      continuation?_loweredByte, continuation?_loweredByte, ih, Option.map_bind]
    refine Option.bind_congr fun x _ => ?_
    rw [Function.comp_apply, Option.map_bind]
    refine Option.bind_congr fun y _ => ?_
    rw [Function.comp_apply]
    exact map_toLower_scalar? (by decide) _ _
  | case8 a h1 h2 h3 h4 h5 b b' b'' rest ih =>
    have ha : 240 ≤ a.toNat := Nat.not_lt.mp h4
    simp only [lowered_cons]
    rw [loweredByte_of_le (by omega), decode_four ha h5, decode_four ha h5,
      continuation?_loweredByte, continuation?_loweredByte, continuation?_loweredByte, ih,
      Option.map_bind]
    refine Option.bind_congr fun x _ => ?_
    rw [Function.comp_apply, Option.map_bind]
    refine Option.bind_congr fun y _ => ?_
    rw [Function.comp_apply, Option.map_bind]
    refine Option.bind_congr fun z _ => ?_
    rw [Function.comp_apply]
    exact map_toLower_scalar? (by decide) _ _
  | case5 a rest h1 h2 h3 hrest =>
    -- in this case and the next two, too few bytes follow
    have ha : 128 ≤ a.toNat := Nat.not_lt.mp h1
    rw [lowered_cons, loweredByte_of_le ha]
    rcases rest with _ | ⟨b, rest⟩
    · simp [lowered, decode, h1, h2, h3]
    · exact (hrest b rest rfl).elim
  | case7 a rest h1 h2 h3 h4 hrest =>
    have ha : 128 ≤ a.toNat := Nat.not_lt.mp h1
    rw [lowered_cons, loweredByte_of_le ha]
    rcases rest with _ | ⟨b, _ | ⟨b', rest⟩⟩
    · simp [lowered, decode, h1, h2, h3, h4]
    · simp [lowered, decode, h1, h2, h3, h4]
    · exact (hrest b b' rest rfl).elim
  | case9 a rest h1 h2 h3 h4 h5 hrest =>
    have ha : 128 ≤ a.toNat := Nat.not_lt.mp h1
    rw [lowered_cons, loweredByte_of_le ha]
    rcases rest with _ | ⟨b, _ | ⟨b', _ | ⟨b'', rest⟩⟩⟩
    · simp [lowered, decode, h1, h2, h3, h4, h5]
    · simp [lowered, decode, h1, h2, h3, h4, h5]
    · simp [lowered, decode, h1, h2, h3, h4, h5]
    · exact (hrest b b' b'' rest rfl).elim
  | case10 a rest h1 h2 h3 h4 h5 =>
    have ha : 128 ≤ a.toNat := Nat.not_lt.mp h1
    rw [lowered_cons, loweredByte_of_le ha, decode.eq_def, decode.eq_def (a :: rest)]
    simp [h1, h2, h3, h4, h5]

end Utf8

/-! ### The last name of a path -/

namespace Text

variable {α : Type} [DecidableEq α] {separator : α}

/-- The parts on both sides of a separator are those of what stands on the two sides. -/
lemma parts_append (before after : List α) : parts separator (before ++ separator :: after) =
    parts separator before ++ parts separator after := by
  induction before with
  | nil => simp [parts]
  | cons a before ih =>
    rw [List.cons_append, parts, parts, ih]
    by_cases h : a = separator
    · rw [if_pos h, if_pos h, List.cons_append]
    · rw [if_neg h, if_neg h]
      obtain ⟨part, others, hparts⟩ := List.exists_cons_of_ne_nil (parts_ne_nil separator before)
      rw [hparts]
      rfl

/-- Without a separator there is one part. -/
lemma parts_of_notMem {as : List α} (h : separator ∉ as) : parts separator as = [as] := by
  induction as with
  | nil => rfl
  | cons a as ih =>
    obtain ⟨hne, has⟩ := not_or.mp (mt List.mem_cons.mpr h)
    rw [parts, if_neg (Ne.symm hne), ih has]

end Text

namespace Path

/-- Slashes, and components that are a single dot, one behind the other. -/
inductive IsTrail : List UInt8 → Prop
  | nil : IsTrail []
  | slash {rest : List UInt8} (h : IsTrail rest) : IsTrail (slash :: rest)
  | dot {rest : List UInt8} (h : IsTrail rest) : IsTrail (slash :: dot :: rest)

/-- The last component of the path that counts is `name`: there may be directories in front of it,
and behind it there is nothing but a trail. -/
structure EndsIn (path name : List UInt8) : Prop where
  /-- A component is not empty. -/
  ne_nil : name ≠ []
  /-- A single dot does not count. -/
  ne_dot : name ≠ [dot]
  /-- There are no slashes in a component. -/
  slash_notMem : slash ∉ name
  /-- The directories, if there are any, end with a slash. -/
  split : ∃ front trail, path = front ++ (name ++ trail) ∧
    (front = [] ∨ ∃ directories, front = directories ++ [slash]) ∧ IsTrail trail

/-- None of the components of a trail counts. -/
lemma exists_parts_append_trail {name trail : List UInt8} (hname : slash ∉ name)
    (htrail : IsTrail trail) : ∃ others, Text.parts slash (name ++ trail) = name :: others ∧
      ∀ part ∈ others, part = [] ∨ part = [dot] := by
  induction htrail generalizing name with
  | nil => exact ⟨[], by rw [List.append_nil, Text.parts_of_notMem hname], by simp⟩
  | @slash rest _ ih =>
    obtain ⟨others, hparts, hothers⟩ := ih (List.not_mem_nil)
    refine ⟨[] :: others, ?_, ?_⟩
    · rw [Text.parts_append, Text.parts_of_notMem hname, ← hparts]
      rfl
    · rintro part (_ | ⟨_, hpart⟩)
      · exact .inl rfl
      · exact hothers part hpart
  | @dot rest _ ih =>
    obtain ⟨others, hparts, hothers⟩ := ih (show slash ∉ [dot] by decide)
    refine ⟨[dot] :: others, ?_, ?_⟩
    · rw [Text.parts_append, Text.parts_of_notMem hname, ← hparts]
      rfl
    · rintro part (_ | ⟨_, hpart⟩)
      · exact .inr rfl
      · exact hothers part hpart

/-- The last component that counts is found, and is no name if it is a step to the parent. -/
lemma EndsIn.lastName?_eq {path name : List UInt8} (h : EndsIn path name) :
    lastName? path = if name = [dot, dot] then none else some name := by
  obtain ⟨front, trail, rfl, hfront, htrail⟩ := h.split
  obtain ⟨others, hparts, hothers⟩ := exists_parts_append_trail h.slash_notMem htrail
  have hpath : ∃ directories,
      Text.parts slash (front ++ (name ++ trail)) = directories ++ name :: others := by
    obtain rfl | ⟨directories, rfl⟩ := hfront
    · exact ⟨[], hparts⟩
    · refine ⟨Text.parts slash directories, ?_⟩
      rw [List.append_assoc, List.singleton_append, Text.parts_append, hparts]
  obtain ⟨directories, hpath⟩ := hpath
  have hskip : others.reverse.find? (fun part => !part.isEmpty && part != [dot]) = none := by
    refine List.find?_eq_none.mpr fun part hpart => ?_
    obtain rfl | rfl := hothers part (List.mem_reverse.mp hpart) <;> decide
  have hname : (name :: directories.reverse).find? (fun part => !part.isEmpty && part != [dot]) =
      some name := List.find?_cons_of_pos (by simp [h.ne_nil, h.ne_dot])
  rw [lastName?, hpath, List.reverse_append, List.reverse_cons, List.append_assoc,
    List.find?_append, hskip, Option.none_or, List.singleton_append, hname]

/-! ### The extension of a name -/

/-- The extension of a name: what follows its last dot, provided that something stands in front of
that dot, and that the name is no step to the parent. -/
def HasExtension (name extension : List UInt8) : Prop :=
  name ≠ [dot, dot] ∧ dot ∉ extension ∧ ∃ stem, stem ≠ [] ∧ name = stem ++ dot :: extension

/-- What a name ends with as far as its last dot, read from the back, has no dots in it. -/
lemma ne_dot_of_notMem {bytes : List UInt8} (h : dot ∉ bytes) :
    ∀ b ∈ bytes.reverse, (b != dot) = true := fun b hb => by
  have hne : b ≠ dot := fun heq => h (heq ▸ List.mem_reverse.mp hb)
  simpa using hne

/-- What follows the last dot of a name. -/
lemma takeWhile_reverse_append {stem extension : List UInt8} (h : dot ∉ extension) :
    ((stem ++ dot :: extension).reverse.takeWhile (· != dot)).reverse = extension := by
  rw [List.reverse_append, List.reverse_cons, List.append_assoc,
    List.takeWhile_append_of_pos (ne_dot_of_notMem h), List.singleton_append,
    List.takeWhile_cons_of_neg (by simp), List.append_nil, List.reverse_reverse]

/-- A name with a dot, cut at the last one. -/
lemma exists_last_dot {name : List UInt8} (h : dot ∈ name) :
    ∃ stem extension, name = stem ++ dot :: extension ∧ dot ∉ extension := by
  obtain ⟨back, front, hreverse, hback⟩ := List.eq_append_cons_of_mem (List.mem_reverse.mpr h)
  refine ⟨front.reverse, back.reverse, ?_, fun hdot => hback (List.mem_reverse.mp hdot)⟩
  rw [← List.reverse_reverse name, hreverse]
  simp

/-- The extension of a name is found. -/
lemma HasExtension.extensionOfName_eq {name extension : List UInt8}
    (h : HasExtension name extension) : extensionOfName name = some extension := by
  obtain ⟨-, hdot, stem, hstem, rfl⟩ := h
  have hpos := List.length_pos_iff.mpr hstem
  rw [extensionOfName, takeWhile_reverse_append hdot]
  refine if_pos ?_
  rw [List.length_append, List.length_cons]
  omega

/-- A name without a dot has no extension. -/
lemma extensionOfName_of_notMem {name : List UInt8} (h : dot ∉ name) :
    extensionOfName name = none := by
  rw [extensionOfName, List.takeWhile_eq_self_iff.mpr (ne_dot_of_notMem h), List.reverse_reverse]
  exact if_neg (by omega)

/-- A name has no extension if its only dot is its first byte. -/
lemma extensionOfName_hidden {rest : List UInt8} (h : dot ∉ rest) :
    extensionOfName (dot :: rest) = none := by
  rw [extensionOfName, ← List.nil_append (dot :: rest), takeWhile_reverse_append h]
  exact if_neg (by simp)

/-- What is read of an extension: the text of its lowered bytes, or nothing. -/
lemma EndsIn.extension_eq {path name : List UInt8} (h : EndsIn path name) :
    extension path = (((if name = [dot, dot] then none else some name).bind
      extensionOfName).bind fun bytes => Utf8.text? (Utf8.lowered bytes)).getD "" := by
  rw [extension, h.lastName?_eq]
  cases hext : (if name = [dot, dot] then none else some name).bind extensionOfName with
  | none => rfl
  | some bytes =>
    simp only [Option.bind_some, Utf8.text?, Utf8.decode_lowered, Option.map_map]
    rfl

/-- The extension of a path is that of its last name, lowered. If it is not UTF-8, nothing is read.
-/
lemma EndsIn.extension_of_hasExtension {path name ext : List UInt8} (h : EndsIn path name)
    (hext : HasExtension name ext) : extension path = (Utf8.text? (Utf8.lowered ext)).getD "" := by
  rw [h.extension_eq, if_neg hext.1, Option.bind_some, hext.extensionOfName_eq, Option.bind_some]

/-- A path has no extension if its last name is a step to the parent, or has none. -/
lemma EndsIn.extension_of_none {path name : List UInt8} (h : EndsIn path name)
    (hnone : name = [dot, dot] ∨ extensionOfName name = none) : extension path = "" := by
  rw [h.extension_eq]
  split_ifs with hparent
  · rfl
  · rw [Option.bind_some, hnone.resolve_left hparent]
    rfl

end Path

/-! ### Languages -/

namespace Language

open Duelist.Path

/-- The extension of the files of a language. -/
def suffix : Language → String
  | .python => "py"
  | .cpp => "cpp"
  | .golang => "go"

/-- A language is known by its own extension, and by no other. -/
lemma ofExtension?_eq_some_iff {extension : String} {language : Language} :
    ofExtension? extension = some language ↔ extension = language.suffix := by
  constructor
  · rw [ofExtension?]
    split_ifs with hpy hcpp hgo <;> rintro ⟨⟩ <;> assumption
  · rintro rfl
    cases language <;> rfl

/-- What a name tells of the language: an extension is compared without regard to the case of ASCII
letters; one that is that of no language is told in lower case, and as nothing if it is not UTF-8.
All other names have none. -/
inductive Told : List UInt8 → Except Refusal Language → Prop
  | known {name extension : List UInt8} (h : HasExtension name extension) {language : Language}
      (hlanguage : Utf8.lowered extension = Utf8.bytes language.suffix) : Told name (.ok language)
  | unknown {name extension : List UInt8} (h : HasExtension name extension)
      (hnone : ∀ language : Language, Utf8.lowered extension ≠ Utf8.bytes language.suffix)
      {written text : String} (hwritten : Utf8.bytes written = extension)
      (htext : Utf8.bytes text = Utf8.lowered extension) :
      Told name (.error (.unknownExtension text))
  | unreadable {name extension : List UInt8} (h : HasExtension name extension)
      (hnone : ∀ text, Utf8.bytes text ≠ extension) : Told name (.error (.unknownExtension ""))
  | plain {name : List UInt8} (h : dot ∉ name) : Told name (.error (.unknownExtension ""))
  | hidden {rest : List UInt8} (h : dot ∉ rest) :
      Told (dot :: rest) (.error (.unknownExtension ""))
  | parent : Told [dot, dot] (.error (.unknownExtension ""))

/-- A path with the extension of a language is in that language. -/
lemma ofPath_of_extension {path : List UInt8} {language : Language}
    (h : Path.extension path = language.suffix) : ofPath path = .ok language := by
  rw [ofPath, ofExtension?_eq_some_iff.mpr h]

/-- A path with any other extension is refused, and the extension is told. -/
lemma ofPath_of_ne {path : List UInt8} {text : String} (h : Path.extension path = text)
    (hnone : ∀ language : Language, text ≠ language.suffix) :
    ofPath path = .error (.unknownExtension text) := by
  have hof : ofExtension? (Path.extension path) = none := by
    refine Option.eq_none_iff_forall_ne_some.mpr fun language heq => ?_
    exact hnone language (h.symm.trans (ofExtension?_eq_some_iff.mp heq))
  rw [ofPath, hof, h]

/-- What a path is told to be in is what its last name tells. -/
lemma Told.ofPath_eq {path name : List UInt8} {result : Except Refusal Language}
    (htold : Told name result) (h : EndsIn path name) : ofPath path = result := by
  have hnothing (language : Language) : "" ≠ language.suffix := by
    cases language <;> decide
  cases htold with
  | known hext hlanguage =>
    refine ofPath_of_extension ?_
    rw [h.extension_of_hasExtension hext, Utf8.text?_eq_some_iff.mpr hlanguage.symm,
      Option.getD_some]
  | unknown hext hnone _ htext =>
    refine ofPath_of_ne ?_ fun language heq => hnone language ?_
    · rw [h.extension_of_hasExtension hext, Utf8.text?_eq_some_iff.mpr htext, Option.getD_some]
    · rw [← htext, heq]
  | @unreadable _ ext hext hnone =>
    -- what is no text does not become one in lower case
    have htext : Utf8.text? ext = none := Utf8.text?_eq_none_iff.mpr hnone
    have hlowered : Utf8.text? (Utf8.lowered ext) = none := by
      rw [Utf8.text?, Utf8.decode_lowered, Option.map_eq_none_iff, Option.map_eq_none_iff]
      exact Option.map_eq_none_iff.mp htext
    refine ofPath_of_ne ?_ hnothing
    rw [h.extension_of_hasExtension hext, hlowered, Option.getD_none]
  | plain hdot =>
    exact ofPath_of_ne (h.extension_of_none (.inr (extensionOfName_of_notMem hdot))) hnothing
  | hidden hdot =>
    exact ofPath_of_ne (h.extension_of_none (.inr (extensionOfName_hidden hdot))) hnothing
  | parent => exact ofPath_of_ne (h.extension_of_none (.inl rfl)) hnothing

/-- A name with an extension tells something: the language, the extension that is unknown, or
nothing if that is not UTF-8. -/
lemma exists_told_of_hasExtension {name extension : List UInt8} (h : HasExtension name extension) :
    ∃ result, Told name result := by
  by_cases hknown : ∃ language : Language, Utf8.lowered extension = Utf8.bytes language.suffix
  · obtain ⟨language, hlanguage⟩ := hknown
    exact ⟨_, .known h hlanguage⟩
  cases htext : Utf8.text? extension with
  | none => exact ⟨_, .unreadable h (Utf8.text?_eq_none_iff.mp htext)⟩
  | some written =>
    obtain ⟨cs, hcs, -⟩ := Option.map_eq_some_iff.mp htext
    have hlowered : Utf8.text? (Utf8.lowered extension) =
        some (.ofList (cs.map Char.toLower)) := by
      rw [Utf8.text?, Utf8.decode_lowered, hcs]
      rfl
    exact ⟨_, .unknown h (fun language hlanguage => hknown ⟨language, hlanguage⟩)
      (Utf8.text?_eq_some_iff.mp htext) (Utf8.text?_eq_some_iff.mp hlowered)⟩

/-- Every name tells something. -/
lemma exists_told (name : List UInt8) : ∃ result, Told name result := by
  by_cases hparent : name = [dot, dot]
  · subst hparent
    exact ⟨_, .parent⟩
  by_cases hplain : dot ∉ name
  · exact ⟨_, .plain hplain⟩
  obtain ⟨stem, extension, hname, hdot⟩ := exists_last_dot (not_not.mp hplain)
  by_cases hstem : stem = []
  · rw [hname, hstem]
    exact ⟨_, .hidden hdot⟩
  · exact exists_told_of_hasExtension ⟨hparent, hdot, stem, hstem, hname⟩

/-! ### The main statement -/

/-- The language of a path is what its last name tells, whatever the directories in front of it and
the trail behind it are, and each name tells one thing. Of a name with an extension only the
extension matters, and of that only its bytes with ASCII letters lowered. -/
theorem told_by_last_name {path name : List UInt8} (h : EndsIn path name) :
    (∀ result, ofPath path = result ↔ Told name result) ∧
    (∀ path', EndsIn path' name → ofPath path' = ofPath path) ∧
    ∀ path' name' extension extension', EndsIn path' name' → HasExtension name extension →
      HasExtension name' extension' → Utf8.lowered extension' = Utf8.lowered extension →
        ofPath path' = ofPath path := by
  obtain ⟨result, htold⟩ := exists_told name
  have hpath := htold.ofPath_eq h
  refine ⟨fun result' => ?_, fun path' h' => ?_, fun path' name' ext ext' h' hext hext' heq => ?_⟩
  · constructor
    · rintro rfl
      exact hpath ▸ htold
    · exact fun htold' => htold'.ofPath_eq h
  · rw [htold.ofPath_eq h', hpath]
  · rw [ofPath, ofPath, h.extension_of_hasExtension hext, h'.extension_of_hasExtension hext', heq]

/-- Dots in the directories and in the stem, capitals in the extension, and a trail. -/
theorem told_by_last_name_trail :
    EndsIn (Utf8.bytes "v1.2/../my.cpp.PY/./") (Utf8.bytes "my.cpp.PY") ∧
      HasExtension (Utf8.bytes "my.cpp.PY") (Utf8.bytes "PY") ∧
      ofPath (Utf8.bytes "v1.2/../my.cpp.PY/./") = .ok .python := by
  have hsplit : Utf8.bytes "v1.2/../my.cpp.PY/./" =
      Utf8.bytes "v1.2/../" ++ (Utf8.bytes "my.cpp.PY" ++ Utf8.bytes "/./") := by decide +kernel
  have hdirectories : Utf8.bytes "v1.2/../" = Utf8.bytes "v1.2/.." ++ [slash] := by decide +kernel
  have htrail : IsTrail (Utf8.bytes "/./") := by
    have hbytes : Utf8.bytes "/./" = [slash, dot, slash] := by decide +kernel
    rw [hbytes]
    exact .dot (.slash .nil)
  have h : EndsIn (Utf8.bytes "v1.2/../my.cpp.PY/./") (Utf8.bytes "my.cpp.PY") :=
    ⟨by decide +kernel, by decide +kernel, by decide +kernel, _, _, hsplit,
      .inr ⟨_, hdirectories⟩, htrail⟩
  have hext : HasExtension (Utf8.bytes "my.cpp.PY") (Utf8.bytes "PY") :=
    ⟨by decide +kernel, by decide +kernel, Utf8.bytes "my.cpp", by decide +kernel,
      by decide +kernel⟩
  exact ⟨h, hext, ((told_by_last_name h).1 _).mpr (.known hext (by decide +kernel))⟩

end Language

end Duelist
