import Duelist.Proofs.Encoding
import Duelist.Proofs.Trimming
import Duelist.Settings
import Mathlib.Data.List.Induction
import Mathlib.Logic.Function.Basic
/-!
# The environment

What the settings are that come from environment variables, and what becomes of them when they are
changed afterwards. Each setting has a variable of its own (`Setting.variableName`), and looks at no
other (`Settings.get_ofEnvironment`).

A wait is set by a numeral. Reading one is the inverse of writing one down in decimal, up to zeros
in front (`Text.digits?_eq_some_iff`), a plus sign (`Text.natural?_eq_some_iff`) and what is blank
around it (`Settings.millis?_eq_some_iff`); so that what is no such numeral, or one for a number
that is too large, leaves the default.

The main statement is `Settings.read_apart`.
-/

namespace Duelist

/-! ### Numerals -/

namespace Text

/-- The value of a digit behind others. -/
lemma valueOfDigits_concat (cs : List Char) (c : Char) :
    valueOfDigits (cs ++ [c]) = 10 * valueOfDigits cs + (c.toNat - '0'.toNat) := by
  rw [valueOfDigits, List.foldl_append]
  rfl

/-- A digit is the numeral of its value. -/
lemma toDigits_of_isDigit {c : Char} (h : c.isDigit) :
    c.toNat - '0'.toNat < 10 ∧ Nat.toDigits 10 (c.toNat - '0'.toNat) = [c] := by
  obtain ⟨hle, hle'⟩ := Char.isDigit_iff_toNat.mp h
  have hlt : c.toNat - '0'.toNat < 10 := by
    have hnine : '9'.toNat = '0'.toNat + 9 := rfl
    omega
  refine ⟨hlt, ?_⟩
  have hchar : (c.toNat - '0'.toNat).digitChar = c := by
    refine Char.toNat_inj.mp ?_
    rw [Nat.toNat_digitChar_of_lt_ten hlt]
    exact Nat.add_sub_of_le hle
  rw [Nat.toDigits_of_lt_base hlt, hchar]

/-- Digits are the numeral of their value, with zeros in front. -/
lemma exists_zeros {cs : List Char} (hne : cs ≠ []) (hdigits : ∀ c ∈ cs, c.isDigit) :
    ∃ zeros, cs = List.replicate zeros '0' ++ Nat.toDigits 10 (valueOfDigits cs) := by
  -- the last digit is the remainder of the value
  induction cs using List.reverseRecOn with
  | nil => exact absurd rfl hne
  | append_singleton cs c ih =>
    obtain ⟨hlt, hc⟩ := toDigits_of_isDigit (hdigits c (by simp))
    rw [valueOfDigits_concat]
    obtain rfl | hcs := eq_or_ne cs []
    · exact ⟨0, by simpa [valueOfDigits] using hc.symm⟩
    obtain ⟨zeros, hzeros⟩ := ih hcs fun c' hc' => hdigits c' (by simp [hc'])
    obtain hvalue | hvalue := Nat.eq_zero_or_pos (valueOfDigits cs)
    · refine ⟨zeros + 1, ?_⟩
      rw [hvalue, Nat.toDigits_zero, ← List.replicate_succ'] at hzeros
      rw [hvalue, Nat.mul_zero, Nat.zero_add, hc, ← hzeros]
    · refine ⟨zeros, ?_⟩
      rw [← Nat.toDigits_append_toDigits (by decide) hvalue hlt, hc, ← List.append_assoc, ← hzeros]

/-- A numeral without its sign consists of digits. -/
lemma isDigit_of_mem {zeros n : ℕ} {c : Char}
    (h : c ∈ List.replicate zeros '0' ++ Nat.toDigits 10 n) : c.isDigit := by
  obtain h | h := List.mem_append.mp h
  · rw [List.eq_of_mem_replicate h]
    rfl
  · exact Nat.isDigit_of_mem_toDigits (by decide) (by decide) h

/-- Digits are read as `n` if they are the decimal digits of `n` behind some zeros. -/
lemma digits?_eq_some_iff {cs : List Char} {n : ℕ} :
    digits? cs = some n ↔ ∃ zeros, cs = List.replicate zeros '0' ++ Nat.toDigits 10 n := by
  rw [digits?, Option.ite_none_right_eq_some, Option.some_inj, Bool.and_eq_true, List.all_eq_true]
  constructor
  · rintro ⟨⟨hne, hdigits⟩, rfl⟩
    exact exists_zeros (by simpa using hne) hdigits
  · rintro ⟨zeros, rfl⟩
    have hvalue : valueOfDigits (List.replicate zeros '0' ++ Nat.toDigits 10 n) =
        Nat.ofDigitChars 10 (List.replicate zeros '0' ++ Nat.toDigits 10 n) 0 := rfl
    refine ⟨⟨by simp [Nat.toDigits_ne_nil], fun c hc => isDigit_of_mem hc⟩, ?_⟩
    rw [hvalue, Nat.ofDigitChars_append, Nat.ofDigitChars_replicate_zero, Nat.mul_zero,
      Nat.ofDigitChars_ten_toDigits]

/-- A numeral for `n`: its digits, perhaps behind zeros, and perhaps all that behind a plus sign. -/
def IsNumeral (n : ℕ) (cs : List Char) : Prop :=
  ∃ sign zeros, (sign = [] ∨ sign = ['+']) ∧
    cs = sign ++ (List.replicate zeros '0' ++ Nat.toDigits 10 n)

/-- Characters are read as `n` if they are a numeral for `n`, with a sign or without one. -/
lemma natural?_eq_some_iff {cs : List Char} {n : ℕ} :
    natural? cs = some n ↔ IsNumeral n cs := by
  constructor
  · intro h
    unfold natural? at h
    split at h
    · obtain ⟨zeros, rfl⟩ := digits?_eq_some_iff.mp h
      exact ⟨['+'], zeros, .inr rfl, rfl⟩
    · obtain ⟨zeros, rfl⟩ := digits?_eq_some_iff.mp h
      exact ⟨[], zeros, .inl rfl, rfl⟩
  · rintro ⟨sign, zeros, rfl | rfl, rfl⟩
    · rw [List.nil_append, natural?]
      · exact digits?_eq_some_iff.mpr ⟨zeros, rfl⟩
      · intro cs hplus
        exact absurd (isDigit_of_mem (hplus ▸ List.mem_cons_self)) (by decide)
    · exact digits?_eq_some_iff.mpr ⟨zeros, rfl⟩

/-- There is nothing blank in a numeral. -/
lemma IsNumeral.not_isBlank {n : ℕ} {cs : List Char} (h : IsNumeral n cs) :
    ∀ c ∈ cs, ¬isBlank c := by
  have hdigit : blanks.all (!·.isDigit) := by decide
  obtain ⟨sign, zeros, hsign, rfl⟩ := h
  intro c hc hblank
  obtain hc | hc := List.mem_append.mp hc
  · obtain rfl | rfl := hsign
    · cases hc
    · obtain rfl := List.mem_singleton.mp hc
      exact absurd hblank (by decide)
  · have hnot := List.all_eq_true.mp hdigit c (isBlank_iff.mp hblank)
    rw [isDigit_of_mem hc] at hnot
    cases hnot

/-- The text is a numeral for `n`, with blank characters around it. -/
def WritesNumber (n : ℕ) (text : String) : Prop :=
  ∃ before cs after, text.toList = before ++ (cs ++ after) ∧ (∀ c ∈ before, isBlank c) ∧
    IsNumeral n cs ∧ ∀ c ∈ after, isBlank c

/-- A text writes a number if what is left of it after trimming is a numeral. -/
lemma writesNumber_iff {n : ℕ} {text : String} :
    WritesNumber n text ↔ IsNumeral n (trimmed text.toList) := by
  constructor
  · rintro ⟨before, cs, after, htext, hbefore, hcs, hafter⟩
    have hkept : trimmed cs = cs := trimmed_eq_self
      (fun c hc => hcs.not_isBlank c (List.mem_of_mem_head? hc))
      (fun c hc => hcs.not_isBlank c (List.mem_of_mem_getLast? hc))
    rw [htext, trimmed_append_left hbefore, trimmed_append_right hafter, hkept]
    exact hcs
  · intro h
    obtain ⟨before, after, htext, hbefore, hafter⟩ := exists_append_trimmed_append text.toList
    exact ⟨before, _, after, htext, hbefore, h, hafter⟩

end Text

/-! ### Settings, one by one -/

/-- The settings that are lengths of time. -/
inductive Wait where
  | pollInterval
  | finishGrace
  | joinTimeout
  | requestTimeout
  deriving DecidableEq

/-- All settings. -/
inductive Setting where
  | base
  | log
  | logDirectory
  | wait (w : Wait)
  deriving DecidableEq

/-- The variable that sets a wait. -/
def Wait.variableName : Wait → String
  | .pollInterval => "DUEL_POLL_INTERVAL_MS"
  | .finishGrace => "DUEL_FINISH_GRACE_MS"
  | .joinTimeout => "DUEL_JOIN_TIMEOUT_MS"
  | .requestTimeout => "DUEL_REQUEST_TIMEOUT_MS"

/-- How long a wait is set to. -/
def Wait.get : Wait → Settings → Duration
  | .pollInterval => Settings.pollInterval
  | .finishGrace => Settings.finishGrace
  | .joinTimeout => Settings.joinTimeout
  | .requestTimeout => Settings.requestTimeout

namespace Setting

/-- What a setting is set to. -/
def Value : Setting → Type
  | .base => String
  | .log => Bool
  | .logDirectory => List UInt8
  | .wait _ => Duration

/-- The variable of a setting. -/
def variableName : Setting → String
  | .base => "DUEL_BASE_URL"
  | .log => "DUEL_LOG"
  | .logDirectory => "DUEL_LOG_DIR"
  | .wait w => w.variableName

/-- The value of a setting. -/
def get : (f : Setting) → Settings → f.Value
  | .base => Settings.base
  | .log => Settings.log
  | .logDirectory => Settings.logDirectory
  | .wait w => w.get

/-- The value that a change gives to a setting, if it is a change to that one. Of an address it is
what is kept. -/
def given? : (f : Setting) → Settings.Change → Option f.Value
  | .base, .base value => some (Settings.address value)
  | .log, .log value => some value
  | .logDirectory, .logDirectory value => some value
  | .wait .pollInterval, .pollInterval value => some value
  | .wait .finishGrace, .finishGrace value => some value
  | .wait .joinTimeout, .joinTimeout value => some value
  | .wait .requestTimeout, .requestTimeout value => some value
  | _, _ => none

/-- The value that a variable gives to its setting. -/
def ofVariable : (f : Setting) → Option (List UInt8) → f.Value
  | .base, value => Settings.address ((value.bind Utf8.text?).getD ({} : Settings).base)
  | .log, value => ((value.bind Utf8.text?).map Settings.isTrue).getD ({} : Settings).log
  | .logDirectory, value => value.getD ({} : Settings).logDirectory
  | .wait w, value => (((value.bind Utf8.text?).bind Settings.millis?).map Duration.ofMillis).getD
    (w.get {})

/-- No two settings share a variable. -/
lemma variableName_injective : Function.Injective variableName := by
  intro f g h
  cases f with
  | wait w => cases w <;> cases g with
    | wait w' => cases w' <;> first | rfl | exact absurd h (by decide)
    | _ => exact absurd h (by decide)
  | _ => cases g with
    | wait w => cases w <;> exact absurd h (by decide)
    | _ => first | rfl | exact absurd h (by decide)

end Setting

namespace Settings

/-- A setting that is read from an environment depends on its own variable only. -/
lemma get_ofEnvironment (f : Setting) (env : String → Option (List UInt8)) :
    f.get (ofEnvironment env) = f.ofVariable (env f.variableName) := by
  cases f with
  | wait w => cases w <;> rfl
  | _ => rfl

/-! ### Waits -/

/-- The variable asks for a wait of `n` milliseconds: it is set to a numeral for `n`, and `n` is a
number of 64 bits. -/
def AsksFor (n : ℕ) (value : Option (List UInt8)) : Prop :=
  ∃ text, value = some (Utf8.bytes text) ∧ Text.WritesNumber n text ∧ n < UInt64.size

/-- A text is read as a number of milliseconds if it writes a number of 64 bits. -/
lemma millis?_eq_some_iff {text : String} {m : UInt64} :
    millis? text = some m ↔ Text.WritesNumber m.toNat text := by
  rw [Text.writesNumber_iff, ← Text.natural?_eq_some_iff, millis?]
  cases Text.natural? (Text.trimmed text.toList) with
  | none => simp
  | some n =>
    rw [Option.ite_none_right_eq_some, Option.some_inj, Option.some_inj]
    constructor
    · rintro ⟨hlt, rfl⟩
      exact (UInt64.toNat_ofNat_of_lt hlt).symm
    · rintro rfl
      exact ⟨m.toNat_lt, UInt64.ofNat_toNat⟩

/-- What is read of a variable is what it asks for. -/
lemma bind_millis?_eq_some_iff {value : Option (List UInt8)} {m : UInt64} :
    (value.bind Utf8.text?).bind millis? = some m ↔ AsksFor m.toNat value := by
  constructor
  · intro h
    obtain ⟨text, htext, hmillis⟩ := Option.bind_eq_some_iff.mp h
    obtain ⟨bytes, rfl, hbytes⟩ := Option.bind_eq_some_iff.mp htext
    rw [Utf8.text?_eq_some_iff] at hbytes
    exact ⟨text, congrArg some hbytes.symm, millis?_eq_some_iff.mp hmillis, m.toNat_lt⟩
  · rintro ⟨text, rfl, hwrites, -⟩
    rw [Option.bind_some, Utf8.text?_eq_some_iff.mpr rfl, Option.bind_some,
      millis?_eq_some_iff.mpr hwrites]

/-- A wait is what its variable says in milliseconds, or its default if the variable is not set, is
not UTF-8, or is no number. -/
lemma get_wait (w : Wait) (env : String → Option (List UInt8)) : w.get (ofEnvironment env) =
    ((((env w.variableName).bind Utf8.text?).bind millis?).map Duration.ofMillis).getD (w.get {}) :=
  get_ofEnvironment (.wait w) env

/-- A variable that asks for `n` milliseconds gets them. -/
lemma nanoseconds_of_asksFor {w : Wait} {env : String → Option (List UInt8)} {n : ℕ}
    (h : AsksFor n (env w.variableName)) :
    (w.get (ofEnvironment env)).nanoseconds = n * 1000000 := by
  obtain ⟨-, -, -, hlt⟩ := id h
  have hn : (UInt64.ofNat n).toNat = n := UInt64.toNat_ofNat_of_lt hlt
  rw [get_wait, bind_millis?_eq_some_iff.mpr (hn.symm ▸ h), Option.map_some, Option.getD_some,
    Duration.nanoseconds_ofMillis, hn]

/-- A variable that asks for no such number leaves the default. -/
lemma get_wait_of_not_asksFor {w : Wait} {env : String → Option (List UInt8)}
    (h : ∀ n, ¬AsksFor n (env w.variableName)) : w.get (ofEnvironment env) = w.get {} := by
  have hnone : ((env w.variableName).bind Utf8.text?).bind millis? = none :=
    Option.eq_none_iff_forall_ne_some.mpr fun m hm => h _ (bind_millis?_eq_some_iff.mp hm)
  rw [get_wait, hnone, Option.map_none, Option.getD_none]

/-! ### Changes -/

/-- A change gives its value to the setting that it is a change to, and leaves the others. -/
lemma get_apply (f : Setting) (s : Settings) (c : Change) :
    f.get (s.apply c) = (f.given? c).getD (f.get s) := by
  cases c with
  | base value =>
    -- the address need not be worked out to see that it is what the setting is given
    rw [apply]
    generalize haddress : address value = kept
    cases f with
    | base => exact haddress.symm
    | wait w => cases w <;> rfl
    | _ => rfl
  | _ =>
    cases f with
    | wait w => cases w <;> rfl
    | _ => rfl

/-- After several changes a setting has the value of the last change to it, or the one that it had.
-/
lemma get_applyAll (f : Setting) (s : Settings) (changes : List Change) :
    f.get (s.applyAll changes) = ((changes.filterMap f.given?).getLast?).getD (f.get s) := by
  -- the last change is made to what the ones before it leave
  induction changes using List.reverseRecOn with
  | nil => rfl
  | append_singleton changes c ih =>
    have hlast : s.applyAll (changes ++ [c]) = (s.applyAll changes).apply c := List.foldl_concat ..
    rw [hlast, get_apply, ih, List.filterMap_append]
    cases hc : f.given? c with
    | none => simp [hc]
    | some value => simp [hc]

/-! ### The main statement -/

/-- A setting depends on its own variable only, whatever becomes of the others. A wait is as long as
its variable asks for, and has its default length if the variable asks for nothing, be it not set,
not UTF-8, or no numeral of a number of 64 bits. After any changes, a setting is what the last
change to it makes of it, or what the environment made of it if there is none, whatever the changes
to the others and their order are. -/
theorem read_apart (env : String → Option (List UInt8)) :
    (∀ (f : Setting) (env' : String → Option (List UInt8)),
      env' f.variableName = env f.variableName →
        f.get (ofEnvironment env') = f.get (ofEnvironment env)) ∧
    (∀ (f g : Setting) (value : Option (List UInt8)), f ≠ g →
      f.get (ofEnvironment (Function.update env g.variableName value)) =
        f.get (ofEnvironment env)) ∧
    (∀ (w : Wait) (n : ℕ), AsksFor n (env w.variableName) →
      (w.get (ofEnvironment env)).nanoseconds = n * 1000000) ∧
    (∀ w : Wait, (∀ n, ¬AsksFor n (env w.variableName)) → w.get (ofEnvironment env) = w.get {}) ∧
    ∀ (changes : List Change) (f : Setting), f.get ((ofEnvironment env).applyAll changes) =
      ((changes.filterMap f.given?).getLast?).getD (f.get (ofEnvironment env)) := by
  have hapart (f : Setting) (env' : String → Option (List UInt8))
      (h : env' f.variableName = env f.variableName) :
      f.get (ofEnvironment env') = f.get (ofEnvironment env) := by
    rw [get_ofEnvironment, get_ofEnvironment, h]
  refine ⟨hapart, fun f g value hne => hapart f _ ?_, fun w n => nanoseconds_of_asksFor,
    fun w => get_wait_of_not_asksFor, fun changes f => get_applyAll f _ changes⟩
  have hname : f.variableName ≠ g.variableName := fun h => hne (Setting.variableName_injective h)
  exact Function.update_of_ne hname value env

/-- An environment with one variable, in which there is a plus sign, zeros, and characters that are
blank. -/
def oneSet : String → Option (List UInt8) :=
  Function.update (fun _ => none) "DUEL_POLL_INTERVAL_MS" (some (Utf8.bytes "\u2003+007 "))

/-- One wait is the seven milliseconds asked for, and another one has its default length. -/
theorem read_apart_oneSet : AsksFor 7 (oneSet "DUEL_POLL_INTERVAL_MS") ∧
    (ofEnvironment oneSet).pollInterval.nanoseconds = 7 * 1000000 ∧
    (ofEnvironment oneSet).joinTimeout = .ofMillis 1000 := by
  have hnumeral : Text.IsNumeral 7 "+007".toList := ⟨['+'], 2, .inr rfl, by decide⟩
  have hwrites : Text.WritesNumber 7 "\u2003+007 " :=
    ⟨['\u2003'], _, [' '], by decide, List.forall_mem_singleton.mpr rfl, hnumeral,
      List.forall_mem_singleton.mpr rfl⟩
  have hasks : AsksFor 7 (oneSet "DUEL_POLL_INTERVAL_MS") :=
    ⟨_, Function.update_self .., hwrites, by decide⟩
  have hasksNot (n : ℕ) : ¬AsksFor n (oneSet "DUEL_JOIN_TIMEOUT_MS") := by
    rintro ⟨text, htext, -⟩
    rw [oneSet, Function.update_of_ne (by decide)] at htext
    cases htext
  obtain ⟨-, -, hasked, hunasked, -⟩ := read_apart oneSet
  exact ⟨hasks, hasked .pollInterval 7 hasks, hunasked .joinTimeout hasksNot⟩

end Settings

end Duelist
