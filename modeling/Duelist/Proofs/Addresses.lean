import Duelist.Proofs.Dealings
import Duelist.Proofs.Encoding
import Duelist.Proofs.Inquiries
import Duelist.Proofs.Trimming
import Duelist.Settings
/-!
# Addresses

What is kept of a text that is given as the address of the service, and how requests are addressed.
Two things are dropped one after the other: what is blank at either end, and then the slashes at the
end of what is left. So the address never begins with a blank character and never ends with a slash
(`Stripped`). But what the slashes were covering is not looked at again. If it is blank, the address
ends with it, and this is the one case in which an address that is set once more is not the same
afterwards.

The main statement is `Settings.addresses`. It holds of every way to set the address, and of all
that is sent with it: the address is followed directly by a path, which begins with a single slash
(`SentTo`, `IsRooted`).
-/

namespace Duelist

open Text

variable {σ α : Type}

namespace Settings

/-! ### What is kept -/

/-- Of the text `value` the address `kept` is left, in front of `slashes`. -/
structure Stripped (value kept slashes : List Char) : Prop where
  /-- Everything around them is blank. -/
  blank : ∃ before after, value = before ++ (kept ++ slashes) ++ after ∧
    ∀ c ∈ before ++ after, isBlank c
  /-- There are slashes behind the address, and nothing else. -/
  slash : ∀ c ∈ slashes, c = '/'
  /-- The address does not begin with a blank character. -/
  first : ∀ c ∈ kept.head?, ¬isBlank c
  /-- It does not end with a slash. -/
  last : ∀ c ∈ kept.getLast?, c ≠ '/'
  /-- It ends with a blank character only if there were slashes behind it. -/
  covered : ∀ c ∈ kept.getLast?, isBlank c → slashes ≠ []

/-- True of an address that ends with a blank character. -/
def EndsBlank (address : String) : Prop :=
  ∃ c ∈ address.toList.getLast?, isBlank c

/-- The characters of an address are those of the text, trimmed, and then without the slashes at
their end. -/
lemma toList_address (value : String) :
    (address value).toList = dropTrailing (· == '/') (trimmed value.toList) := by
  rw [address, String.toList_ofList]

/-- What is kept of an address that is given, and what is dropped. -/
lemma exists_stripped (value : String) :
    ∃ slashes, Stripped value.toList (address value).toList slashes := by
  obtain ⟨slashes, htrimmed, hslashes⟩ :=
    exists_dropTrailing_append (· == '/') (trimmed value.toList)
  obtain ⟨before, after, hsplit, hbefore, hafter⟩ := exists_append_trimmed_append value.toList
  refine ⟨slashes, ⟨before, after, ?_, ?_⟩, ?_, ?_, ?_, ?_⟩
  · rw [toList_address, ← htrimmed, List.append_assoc, ← hsplit]
  · intro c hc
    obtain hc | hc := List.mem_append.mp hc
    · exact hbefore c hc
    · exact hafter c hc
  · exact fun c hc => by simpa using hslashes c hc
  · intro c hc
    rw [toList_address] at hc
    have hhead : c ∈ (trimmed value.toList).head? := by
      rw [htrimmed, List.head?_append, Option.mem_def.mp hc, Option.some_or]
      rfl
    exact not_isBlank_of_mem_head?_trimmed hhead
  · intro c hc
    rw [toList_address] at hc
    simpa using not_of_mem_getLast?_dropTrailing hc
  · rintro c hc hblank rfl
    rw [toList_address, ← List.append_nil (dropTrailing _ _), ← htrimmed] at hc
    exact not_of_mem_getLast?_dropTrailing hc hblank

/-- An address stays the same when it is set once more, unless it ends with a blank character. -/
lemma address_address_iff (value : String) :
    address (address value) = address value ↔ ¬EndsBlank (address value) := by
  obtain ⟨slashes, h⟩ := exists_stripped value
  constructor
  · rintro hsame ⟨c, hc, hblank⟩
    obtain ⟨slashes', h'⟩ := exists_stripped (address value)
    rw [hsame] at h'
    -- nothing can have been dropped, and so there was no slash behind the blank character
    obtain ⟨before, after, hsplit, -⟩ := h'.blank
    have hlength := congrArg List.length hsplit
    simp only [List.length_append] at hlength
    exact h'.covered c hc hblank (List.length_eq_zero_iff.mp (by omega))
  · intro hblank
    have htrimmed : trimmed (address value).toList = (address value).toList :=
      trimmed_eq_self h.first fun c hc hc' => hblank ⟨c, hc, hc'⟩
    have hslash : dropTrailing (· == '/') (address value).toList = (address value).toList :=
      dropTrailing_eq_self fun c hc => by simpa using h.last c hc
    rw [← String.toList_inj, toList_address, htrimmed, hslash]

/-- The address that is set by the environment. -/
lemma base_ofEnvironment (value : String) (others : String → Option (List UInt8)) :
    (ofEnvironment fun name => if name = "DUEL_BASE_URL" then some (Utf8.bytes value)
      else others name).base = address value := by
  have htext : Utf8.text? (Utf8.bytes value) = some value :=
    Utf8.text?_eq_some_iff.mpr rfl
  have hbase : (ofEnvironment fun name => if name = "DUEL_BASE_URL" then some (Utf8.bytes value)
      else others name).base = address ((Utf8.text? (Utf8.bytes value)).getD _) := rfl
  rw [hbase, htext, Option.getD_some]

end Settings

/-! ### Paths -/

/-- True of a path that begins with one slash, behind which there is nothing blank. -/
def IsRooted (path : String) : Prop :=
  ∃ (c : Char) (rest : List Char), c ≠ '/' ∧ ¬isBlank c ∧ path.toList = '/' :: c :: rest

namespace IsRooted

variable {path : String}

/-- The beginning of a path decides. -/
lemma append (h : IsRooted path) (rest : String) : IsRooted (path ++ rest) := by
  obtain ⟨c, cs, hslash, hblank, hpath⟩ := h
  refine ⟨c, cs ++ rest.toList, hslash, hblank, ?_⟩
  rw [String.toList_append, hpath, List.cons_append, List.cons_append]

/-- The paths of duels are rooted. -/
lemma duels : IsRooted "/duels/" :=
  ⟨'d', "uels/".toList, by decide, by decide, by decide⟩

/-- The paths of players are rooted. -/
lemma users : IsRooted "/users/" :=
  ⟨'u', "sers/".toList, by decide, by decide, by decide⟩

/-- The paths of tasks are rooted. -/
lemma task : IsRooted "/task/" :=
  ⟨'t', "ask/".toList, by decide, by decide, by decide⟩

/-- Every question of the client goes to a rooted path. -/
lemma query (q : Question) : IsRooted q.query.path := by
  cases q with
  | events => exact duels.append "connect"
  | duel id => exact duels.append _
  | player id => exact users.append _
  | task id => exact task.append _
  | taskFile id file => exact ((task.append _).append _).append _
  | handIn id solution language => exact (duels.append _).append _
  | grading id submission => exact ((duels.append _).append _).append _

end IsRooted

/-! ### What is sent -/

/-- The request that a deed sent. -/
def Deed.request? : Deed → Option Request
  | .sent request _ => some request
  | .stored _ => none

/-- To read the body of a reply does nothing to the request. -/
lemma Deed.filterMap_request?_eq {ds ds' : List Deed} (h : List.Forall₂ ReadAs ds ds') :
    ds.filterMap request? = ds'.filterMap request? := by
  induction h with
  | nil => rfl
  | cons hd _ ih =>
    cases hd with
    | same => rw [List.filterMap_cons, List.filterMap_cons, ih]
    | read request r c => rw [List.filterMap_cons, List.filterMap_cons, ih]; rfl

/-- All that was sent went to one of the `paths`, put directly behind the address `base`. -/
def SentTo (base : String) (paths : List String) (ds : List Deed) : Prop :=
  ∀ r ∈ ds.filterMap Deed.request?, ∃ path ∈ paths, IsRooted path ∧ r.url = base ++ path

/-- The path of a query, and that of a refresh. -/
def Query.paths (q : Query) : List String :=
  [q.path, "/users/refresh"]

section

variable (base : String) (q : Query)

/-- A query with a token goes to its own path. -/
lemma sentTo_carrying (h : IsRooted q.path) (token : String) :
    ∃ path ∈ q.paths, IsRooted path ∧ (q.carrying base token).url = base ++ path :=
  ⟨q.path, .head _, h, rfl⟩

/-- A request for new tokens goes to the path of the refresh. -/
lemma sentTo_refresh (token : String) :
    ∃ path ∈ q.paths, IsRooted path ∧ (Request.refresh base token).url = base ++ path :=
  ⟨"/users/refresh", .tail _ (.head _), IsRooted.users.append "refresh", rfl⟩

variable {base q}

/-- Whatever comes of asking, only the query and refreshes are sent. -/
lemma Asked.sentTo {ds : List Deed} {result : Except Failure Reply}
    (hasked : Asked base q ds result) (h : IsRooted q.path) : SentTo base q.paths ds := by
  obtain ⟨a, found, read, hread, hcourse⟩ := hasked
  rw [SentTo, Deed.filterMap_request?_eq hread]
  have hquery := sentTo_carrying base q h
  have hrefresh := sentTo_refresh base q
  cases hcourse <;> simp [Deed.request?, hquery, hrefresh]

end

/-- Whatever others do meanwhile, all that the errand sends goes to one of the `paths`, put directly
behind the address of the link. -/
def Link.Addresses (link : Link σ) (paths : List String) (e : Errand (World σ) α) : Prop :=
  ∀ w, (e w).Does (fun _ _ => True) (Deed.Leads link)
    (fun ds _ _ => SentTo link.base paths ds) [] w

namespace Link

open Errand

variable (link : Link σ) {β : Type}

/-- It does not matter what becomes of the result. -/
lemma Addresses.map {link : Link σ} {paths : List String} {e : Errand (World σ) α}
    (h : link.Addresses paths e) (f : α → β) : link.Addresses paths (do return f (← e)) :=
  fun w => does_bind (h w) fun _ _ _ hnew => does_pure hnew

/-- A query sent on behalf of the player goes to its own path, or is preceded by a refresh. -/
lemma addresses_request {q : Query} (h : IsRooted q.path) :
    link.Addresses q.paths (link.request q) :=
  fun w => (link.does_request q w).imp fun _ _ _ hasked => hasked.sentTo h

/-- To read the reply to its end sends nothing more. -/
lemma addresses_ask {q : Query} (h : IsRooted q.path) : link.Addresses q.paths (link.ask q) :=
  fun w => (link.does_ask q w).imp fun _ _ _ hasked => hasked.sentTo h

/-- So it is with all questions of the client. -/
lemma addresses_question (q : Question) : link.Addresses q.query.paths (q.ask link) := by
  have hrooted := IsRooted.query q
  cases q with
  | events => exact (link.addresses_request hrooted).map _
  | duel id => exact ((link.addresses_ask hrooted).map _).map _
  | player id => exact ((link.addresses_ask hrooted).map _).map _
  | task id => exact ((link.addresses_ask hrooted).map _).map _
  | taskFile id file => exact ((link.addresses_ask hrooted).map _).map _
  | handIn id solution language => exact ((link.addresses_ask hrooted).map _).map _
  | grading id submission => exact ((link.addresses_ask hrooted).map _).map _

/-- Signing in goes to one path only. -/
lemma addresses_signingIn (nickname password : String) :
    link.Addresses ["/users/login"] (link.signingIn nickname password) := by
  intro w
  let sent := Deed.sent (.signIn link.base nickname password)
    (link.outcome (.signIn link.base nickname password) w)
  have hsent : SentTo link.base ["/users/login"] [sent] := by
    intro r hr
    obtain rfl := List.mem_singleton.mp hr
    exact ⟨"/users/login", .head _, IsRooted.users.append "login", rfl⟩
  refine does_lift_bind [sent] ?_ fun t _ => ?_
  · rw [link.askTokens_apply]
    exact .sent w _
  cases (link.askTokens nickname password w).1 with
  | error e => exact does_pure hsent
  | ok pair =>
    refine does_lift_bind [.stored pair] (.stored t pair) fun u _ => ?_
    exact does_pure hsent

/-- A single step of a call sends nothing else, either. -/
lemma sentTo_step {q : Query} (h : IsRooted q.path) {c : Call} (hc : c.query? = some q)
    (w : World σ) : SentTo link.base q.paths (c.deeds link w) := by
  have hquery := sentTo_carrying link.base q h
  have hrefresh := sentTo_refresh link.base q
  cases c with
  | finished result => cases hc
  | _ =>
    obtain rfl := Option.some.inj hc
    simp [SentTo, Call.deeds, Call.request?, Call.pair?, Deed.request?, hquery, hrefresh]

end Link

/-! ### The main statement -/

namespace Settings

/-- An address is kept without what is blank at its ends, and without the slashes that are then at
its end; it stays the same when it is set once more, unless what stood before the slashes was blank.
This is so whether it is set by a change or by the environment.

Whatever is asked of the service, and whatever others do in the meantime, all that is sent goes to
the address that is kept, directly followed by the path that is asked for or that of a refresh,
which begins with a single slash and nothing blank. -/
theorem addresses (value : String) :
    (∃ slashes, Stripped value.toList (address value).toList slashes) ∧
    (address (address value) = address value ↔ ¬EndsBlank (address value)) ∧
    (∀ s : Settings, (s.apply (.base value)).base = address value) ∧
    (∀ others : String → Option (List UInt8), (ofEnvironment fun name =>
      if name = "DUEL_BASE_URL" then some (Utf8.bytes value) else others name).base =
        address value) ∧
    ∀ (σ : Type) (answer : Request → σ → Outcome × σ),
      let link : Link σ := { base := address value, answer }
      (∀ q : Question, link.Addresses q.query.paths (q.ask link)) ∧
      (∀ nickname password,
        link.Addresses ["/users/login"] (link.signingIn nickname password)) ∧
      ∀ (q : Question) (c : Call), c.query? = some q.query → ∀ w,
        Deed.Leads link w (c.deeds link w) (c.step link w).2 ∧
          SentTo link.base q.query.paths (c.deeds link w) := by
  refine ⟨exists_stripped value, address_address_iff value, fun _ => rfl,
    base_ofEnvironment value, fun σ answer => ?_⟩
  intro link
  refine ⟨link.addresses_question, link.addresses_signingIn, fun q c hc w => ?_⟩
  exact ⟨c.leads_step link w, link.sentTo_step (.query q) hc w⟩

/-- A blank character before a slash at the end: the address that is kept ends with it, and becomes
another one when it is set once more. -/
theorem address_endsBlank : address "http://h/ /" = "http://h/ " ∧
    EndsBlank (address "http://h/ /") ∧ address (address "http://h/ /") = "http://h" := by
  have haddress : address "http://h/ /" = "http://h/ " := by decide +kernel
  rw [haddress]
  exact ⟨rfl, ⟨' ', by decide +kernel, by decide⟩, by decide +kernel⟩

end Settings
end Duelist
