import Duelist.Exchange.SignIn
import Duelist.Proofs.Renewals
/-!
# Signing in meanwhile

Calls under way in one world, and others who sign in meanwhile. A sign-in does not wait for the
refresh lock. It may therefore store its pair while some caller is between its look at the tokens
and the storing of the pair that it was granted for them; that pair then replaces the one of the
sign-in, although it was granted for the tokens before.

The main statement is `Lobby.refresh_replaces`: a refresh replaces the pair for which it was
granted, unless somebody has signed in since the caller looked, and then it replaces what the last
of them has stored. `Lobby.signed_in_pair_lost` is a run in which this happens.
-/

namespace Duelist

/-- How far somebody has come who signs in. -/
inductive SigningIn where
  /-- About to hand in a nickname and a password. -/
  | asking (nickname password : String)
  /-- About to store the pair that was granted. -/
  | storing (pair : Tokens)
  /-- Over. -/
  | finished (result : Except Failure Unit)

namespace SigningIn

variable {σ : Type}

/-- Where a sign-in goes once it was answered. -/
def answered : Except Failure Tokens → SigningIn
  | .ok pair => .storing pair
  | .error e => .finished (.error e)

/-- The next step of a sign-in. -/
def step (link : Link σ) : SigningIn → Act σ SigningIn
  | .asking nickname password => return answered (← link.askTokens nickname password)
  | .storing pair => do
    Act.store pair
    return .finished (.ok ())
  | .finished result => return .finished result

/-- The pair that the next step of a sign-in stores. -/
def pair? : SigningIn → Option Tokens
  | .storing pair => some pair
  | _ => none

/-- Two steps with nobody in between are a sign-in. -/
theorem step_bind_step (link : Link σ) (nickname password : String) :
    (step link (.asking nickname password) >>= step link) =
      return .finished (← link.signIn nickname password) := by
  have hstep : step link (.asking nickname password) >>= step link =
      link.askTokens nickname password >>= fun granted => step link (answered granted) := rfl
  rw [hstep, Link.signIn, bind_assoc]
  congr 1
  funext granted
  cases granted <;> rfl

/-- The tokens change by what the step stores. -/
lemma tokens_step (link : Link σ) (c : SigningIn) (w : World σ) :
    (c.step link w).2.tokens = c.pair?.getD w.tokens := by
  cases c <;> rfl

end SigningIn

/-- Callers, and others who sign in. -/
structure Lobby (ι κ σ : Type) where
  /-- The callers, and the world. -/
  callers : Callers ι σ
  /-- The sign-in of each of the others. -/
  signIns : κ → SigningIn

namespace Lobby

variable {ι κ σ : Type}

/-- All have yet to begin, the callers with their queries, the others with a nickname and a
password. -/
def begin (w : World σ) (queries : ι → Query) (names : κ → String × String) : Lobby ι κ σ where
  callers := .begin w queries
  signIns k := .asking (names k).1 (names k).2

/-- The stored tokens. -/
def tokens (s : Lobby ι κ σ) : Tokens :=
  s.callers.world.tokens

/-- The call of the caller `i`. -/
def call (s : Lobby ι κ σ) (i : ι) : Call :=
  s.callers.calls i

/-- The pair that is stored when `x` moves. -/
def stored? (s : Lobby ι κ σ) : ι ⊕ κ → Option Tokens
  | .inl i => (s.call i).pair?
  | .inr k => (s.signIns k).pair?

/-- The pair that is stored by a sign-in when `x` moves. -/
def signedIn? (s : Lobby ι κ σ) : ι ⊕ κ → Option Tokens
  | .inl _ => none
  | .inr k => (s.signIns k).pair?

variable [DecidableEq ι] [DecidableEq κ] (link : Link σ)

/-- What becomes of all when `x` moves: a caller, or somebody who signs in. -/
def move (s : Lobby ι κ σ) : ι ⊕ κ → Lobby ι κ σ
  | .inl i => { s with callers := s.callers.move link i }
  | .inr k =>
    { callers := { s.callers with world := ((s.signIns k).step link s.callers.world).2 }
      signIns := Function.update s.signIns k ((s.signIns k).step link s.callers.world).1 }

/-- What becomes of all when those on the schedule move, one after the other. -/
def run (s : Lobby ι κ σ) (schedule : List (ι ⊕ κ)) : Lobby ι κ σ :=
  schedule.foldl (move link) s

/-- The pairs that are stored by sign-ins in the course of a schedule. -/
def signedIn (s : Lobby ι κ σ) : List (ι ⊕ κ) → List Tokens
  | [] => []
  | x :: xs => (s.signedIn? x).toList ++ (s.move link x).signedIn xs

/-- A run goes on where the part before it has ended. -/
lemma run_append (s : Lobby ι κ σ) (xs ys : List (ι ⊕ κ)) :
    s.run link (xs ++ ys) = (s.run link xs).run link ys :=
  List.foldl_append

/-- The last one on a schedule moves after all the others. -/
lemma run_concat (s : Lobby ι κ σ) (xs : List (ι ⊕ κ)) (x : ι ⊕ κ) :
    s.run link (xs ++ [x]) = (s.run link xs).move link x := by
  rw [run_append]
  rfl

/-- The pair of a sign-in that is stored by the last move comes last. -/
lemma signedIn_concat (s : Lobby ι κ σ) (xs : List (ι ⊕ κ)) (x : ι ⊕ κ) :
    s.signedIn link (xs ++ [x]) =
      s.signedIn link xs ++ ((s.run link xs).signedIn? x).toList := by
  induction xs generalizing s with
  | nil => simp [signedIn, run]
  | cons y xs ih => rw [List.cons_append, signedIn, ih, signedIn, List.append_assoc]; rfl

/-! ### What a move does -/

variable {link} {s : Lobby ι κ σ} {i : ι}

/-- Only the holder of the lock is at a stage where it is held, whoever moves. -/
lemma locked_move (h : s.callers.Locked) (x : ι ⊕ κ) : (s.move link x).callers.Locked := by
  cases x with
  | inl i =>
    obtain hs | ⟨-, hsame⟩ := Callers.advances_or_waits link s.callers i
    · exact hs.locked h
    · have hcallers : (s.move link (.inl i)).callers = s.callers := hsame
      rwa [hcallers]
  | inr k => exact h

/-- Whatever was done, only the holder of the lock is at a stage where the lock is held. -/
lemma locked_run (w : World σ) (queries : ι → Query) (names : κ → String × String)
    (xs : List (ι ⊕ κ)) : ((begin w queries names).run link xs).callers.Locked := by
  induction xs using List.reverseRecOn with
  | nil => exact fun i => ⟨fun h => (by cases h), fun h => (by cases h)⟩
  | append_singleton xs x ih =>
    rw [run_concat]
    exact locked_move ih x

/-- The tokens change by what is stored, and by nothing else. -/
lemma tokens_move (link : Link σ) (s : Lobby ι κ σ) (x : ι ⊕ κ) :
    (s.move link x).tokens = (s.stored? x).getD s.tokens := by
  cases x with
  | inl i =>
    obtain hs | ⟨htakes, hsame⟩ := Callers.advances_or_waits link s.callers i
    · exact hs.goes.tokens_eq
    · obtain ⟨q, used, hc⟩ := Call.eq_refused_of_takesLock htakes
      have hnone : s.stored? (.inl i) = none := congrArg Call.pair? hc
      rw [hnone]
      exact congrArg (fun callers : Callers ι σ => callers.world.tokens) hsame
  | inr k => exact SigningIn.tokens_step link (s.signIns k) s.callers.world

omit [DecidableEq ι] [DecidableEq κ] in
/-- While some caller holds the lock and stores nothing itself, only sign-ins store anything. -/
lemma stored?_of_holdsLock (h : s.callers.Locked) (hi : (s.call i).holdsLock) {x : ι ⊕ κ}
    (hx : x = .inl i → (s.call i).pair? = none) : s.stored? x = s.signedIn? x := by
  cases x with
  | inl j =>
    have hnone : (s.call j).pair? = none := by
      rw [Option.eq_none_iff_forall_ne_some]
      intro pair hp
      have hj := (h j).mpr (Call.holdsLock_of_pair? hp)
      obtain rfl : i = j := Option.some.inj (((h i).mpr hi).symm.trans hj)
      cases (hx rfl).symm.trans hp
    exact hnone
  | inr k => rfl

/-- A call changes only when its caller takes a step. -/
lemma call_move (link : Link σ) (s : Lobby ι κ σ) (i : ι) (x : ι ⊕ κ) :
    ((s.move link x).call i = s.call i ∧ (x = .inl i → (s.call i).takesLock)) ∨
      (x = .inl i ∧ (s.call i).Goes s.tokens ((s.move link x).call i) (s.move link x).tokens) := by
  cases x with
  | inl j =>
    obtain hs | ⟨htakes, hsame⟩ := Callers.advances_or_waits link s.callers j
    · by_cases hij : i = j
      · subst hij
        exact .inr ⟨rfl, hs.goes⟩
      · exact .inl ⟨hs.others i hij, fun hx => absurd (Sum.inl.inj hx).symm hij⟩
    · refine .inl ⟨congrArg (fun callers : Callers ι σ => callers.calls i) hsame, fun hx => ?_⟩
      obtain rfl := Sum.inl.inj hx
      exact htakes
  | inr k => exact .inl ⟨rfl, fun hx => (by cases hx)⟩

/-! ### What a refresh replaces -/

/-- What was stored last in the course of a schedule, when `t` was stored before. -/
lemma getLast?_signedIn_concat (link : Link σ) (s : Lobby ι κ σ) (xs : List (ι ⊕ κ)) (x : ι ⊕ κ)
    (t : Tokens) : (s.signedIn link (xs ++ [x])).getLast?.getD t =
      ((s.run link xs).signedIn? x).getD ((s.signedIn link xs).getLast?.getD t) := by
  rw [signedIn_concat]
  cases (s.run link xs).signedIn? x <;> simp

section

variable {w : World σ} {queries : ι → Query} {names : κ → String × String} {us vs : List (ι ⊕ κ)}

/-- If only sign-ins have stored something since `us`, and some caller holds the lock, then that is
so still after a move. -/
lemma tokens_concat {x : ι ⊕ κ} {t : Tokens}
    (hi : (((begin w queries names).run link (us ++ vs)).call i).holdsLock)
    (hx : x = .inl i → (((begin w queries names).run link (us ++ vs)).call i).pair? = none)
    (h : ((begin w queries names).run link (us ++ vs)).tokens =
      (((begin w queries names).run link us).signedIn link vs).getLast?.getD t) :
    ((begin w queries names).run link (us ++ (vs ++ [x]))).tokens =
      (((begin w queries names).run link us).signedIn link (vs ++ [x])).getLast?.getD t := by
  rw [← List.append_assoc, run_concat, tokens_move,
    stored?_of_holdsLock (locked_run w queries names _) hi hx, h, getLast?_signedIn_concat,
    ← run_append]

/-- Whoever is about to send a refresh token found it under the lock. Since then only sign-ins have
stored something. -/
lemma exists_look {ys : List (ι ⊕ κ)} {q : Query} {spent : String}
    (h : ((begin w queries names).run link ys).call i = .refreshing q spent) :
    ∃ us vs, ys = us ++ .inl i :: vs ∧
      let s := (begin w queries names).run link us
      s.call i = .deciding q s.tokens.access ∧ spent = s.tokens.refresh ∧
      ((begin w queries names).run link ys).tokens =
        (s.signedIn link (.inl i :: vs)).getLast?.getD s.tokens := by
  -- backwards from the end: the last move is that of somebody else, or the look at the pair
  induction ys using List.reverseRecOn with
  | nil => cases h
  | append_singleton ys x ih =>
    obtain ⟨hsame, hx⟩ | ⟨rfl, hgoes⟩ := call_move link ((begin w queries names).run link ys) i x
    · rw [run_concat, hsame] at h
      obtain ⟨us, vs, rfl, hcall, hspent, htokens⟩ := ih h
      refine ⟨us, vs ++ [x], by simp, hcall, hspent, ?_⟩
      have hconcat := tokens_concat (x := x) (by rw [h]; rfl) (fun _ => by rw [h]; rfl) htokens
      simpa using hconcat
    · rw [run_concat] at h ⊢
      rw [h] at hgoes
      generalize hc : ((begin w queries names).run link ys).call i = c at hgoes
      generalize ht : ((begin w queries names).run link ys).tokens = t at hgoes
      generalize ht' : (((begin w queries names).run link ys).move link (.inl i)).tokens = t'
        at hgoes ⊢
      cases hgoes with
      | spend q hr => exact ⟨ys, [], rfl, by rw [hc, ht], by rw [ht], by rw [ht]; rfl⟩

/-- Whoever is about to store a pair was granted it for a refresh token that it found under the
lock. Since then only sign-ins have stored something. -/
lemma exists_grant {ys : List (ι ⊕ κ)} {q : Query} {pair : Tokens}
    (h : ((begin w queries names).run link ys).call i = .storing q pair) :
    ∃ us vs ws, ys = us ++ .inl i :: (vs ++ .inl i :: ws) ∧
      let s := (begin w queries names).run link us
      s.call i = .deciding q s.tokens.access ∧
      (s.run link (.inl i :: vs)).call i = .refreshing q s.tokens.refresh ∧
      ((begin w queries names).run link ys).tokens =
        (s.signedIn link (.inl i :: (vs ++ .inl i :: ws))).getLast?.getD s.tokens := by
  -- backwards from the end: the last move is that of somebody else, or the one that was granted
  induction ys using List.reverseRecOn with
  | nil => cases h
  | append_singleton ys x ih =>
    obtain ⟨hsame, hx⟩ | ⟨rfl, hgoes⟩ := call_move link ((begin w queries names).run link ys) i x
    · rw [run_concat, hsame] at h
      obtain ⟨us, vs, ws, rfl, hcall, hsent, htokens⟩ := ih h
      refine ⟨us, vs, ws ++ [x], by simp, hcall, hsent, ?_⟩
      have hconcat := tokens_concat (x := x) (by rw [h]; rfl)
        (fun hxi => by have htakes := hx hxi; rw [h] at htakes; cases htakes) htokens
      simpa using hconcat
    · rw [run_concat] at h
      rw [h] at hgoes
      generalize hc : ((begin w queries names).run link ys).call i = c at hgoes
      generalize ((begin w queries names).run link ys).tokens = t at hgoes
      generalize (((begin w queries names).run link ys).move link (.inl i)).tokens = t' at hgoes
      cases hgoes with
      | grant q spent pair =>
        obtain ⟨us, vs, rfl, hcall, rfl, htokens⟩ := exists_look hc
        refine ⟨us, vs, [], by simp, hcall, by rw [← run_append, hc], ?_⟩
        have hconcat := tokens_concat (x := .inl i) (by rw [hc]; rfl) (fun _ => by rw [hc]; rfl)
          htokens
        simpa using hconcat

end

/-- A refresh that is about to store the pair it was granted replaces the one that it found under
the lock, whose refresh token it sent, unless somebody has signed in since; then it replaces what
the last of them has stored. The caller looked after `us` and asked after `vs`. -/
theorem refresh_replaces (link : Link σ) (w : World σ) (queries : ι → Query)
    (names : κ → String × String) (ys : List (ι ⊕ κ)) (i : ι) (pair : Tokens)
    (h : (((begin w queries names).run link ys).call i).pair? = some pair) :
    ∃ q us vs ws, ys = us ++ .inl i :: (vs ++ .inl i :: ws) ∧
      let looking := (begin w queries names).run link us
      let asking := looking.run link (.inl i :: vs)
      let storing := (begin w queries names).run link ys
      looking.call i = .deciding q looking.tokens.access ∧
      (asking.call i).request? link.base = some (.refresh link.base looking.tokens.refresh) ∧
      storing.tokens = (looking.signedIn link
        (.inl i :: (vs ++ .inl i :: ws))).getLast?.getD looking.tokens ∧
      (storing.move link (.inl i)).tokens = pair := by
  obtain ⟨q, hc⟩ := Call.eq_storing_of_pair? h
  obtain ⟨us, vs, ws, hys, hlook, hask, htokens⟩ := exists_grant hc
  refine ⟨q, us, vs, ws, hys, hlook, by rw [hask]; rfl, htokens, ?_⟩
  obtain ⟨-, htakes⟩ | ⟨-, hgoes⟩ := call_move link ((begin w queries names).run link ys) i (.inl i)
  · have hno := htakes rfl
    rw [hc] at hno
    cases hno
  · rw [hgoes.tokens_eq, h, Option.getD_some]

/-- As long as nothing is stored the tokens stay. -/
lemma tokens_run (link : Link σ) (s : Lobby ι κ σ) (xs : List (ι ⊕ κ))
    (h : ∀ ys x zs, xs = ys ++ x :: zs → (s.run link ys).stored? x = none) :
    (s.run link xs).tokens = s.tokens := by
  induction xs using List.reverseRecOn with
  | nil => rfl
  | append_singleton xs x ih =>
    have hxs := ih fun ys y zs hys => h ys y (zs ++ [x]) (by simp [hys])
    rw [run_concat, tokens_move, h xs x [] rfl, Option.getD_none, hxs]

/-- The pair `P` that a sign-in has stored after `xs` is replaced, if not by another sign-in, by a
refresh that spends the refresh token of `P`, or else by one whose caller had looked before. -/
theorem spends_signed_in_or_looked_before (link : Link σ) (w : World σ) (queries : ι → Query)
    (names : κ → String × String) (xs ys : List (ι ⊕ κ)) (k : κ) (P : Tokens)
    (hk : ((begin w queries names).run link xs).signedIn? (.inr k) = some P)
    (hys : ∀ cs y ds, ys = cs ++ y :: ds →
      ((begin w queries names).run link (xs ++ .inr k :: cs)).stored? y = none)
    (i : ι) (pair : Tokens)
    (h : (((begin w queries names).run link (xs ++ .inr k :: ys)).call i).pair? = some pair) :
    ∃ us vs ws, xs ++ .inr k :: ys = us ++ .inl i :: (vs ++ .inl i :: ws) ∧
      let looking := (begin w queries names).run link us
      let asking := looking.run link (.inl i :: vs)
      (asking.call i).request? link.base = some (.refresh link.base looking.tokens.refresh) ∧
      (looking.tokens = P ∨ us.length < xs.length) := by
  obtain ⟨q, hc⟩ := Call.eq_storing_of_pair? h
  obtain ⟨us, vs, ws, hsplit, -, hask, -⟩ := exists_grant hc
  refine ⟨us, vs, ws, hsplit, by rw [hask]; rfl, ?_⟩
  obtain ⟨cs, hus, hcs⟩ | ⟨cs, hxs, hcs⟩ := List.append_eq_append_iff.mp hsplit
  · cases cs with
    | nil => cases hcs
    | cons y cs =>
      -- the caller looked after the pair was stored, and nothing was stored in between
      obtain ⟨rfl, hys'⟩ := List.cons.inj hcs
      have hstored := tokens_run link ((begin w queries names).run link (xs ++ [.inr k])) cs
        fun as y bs hsub => by
          rw [← run_append, List.append_assoc]
          exact hys as y (bs ++ .inl i :: (vs ++ .inl i :: ws)) (by rw [hys', hsub]; simp)
      left
      rw [hus, ← List.singleton_append, ← List.append_assoc, run_append, hstored, run_concat,
        tokens_move]
      exact congrArg (fun stored : Option Tokens => stored.getD _) hk
  · cases cs with
    | nil => cases hcs
    | cons y cs =>
      right
      rw [hxs, List.length_append, List.length_cons]
      omega

/-- A service that no longer knows the access token `a0`, and grants a pair to whoever signs in and
to whoever refreshes. -/
def granting : Link Unit where
  base := ""
  answer request _ :=
    let pair (access refresh : String) : Outcome :=
      let body := s!"[\"{access}\",\"{refresh}\"]"
      .ok { status := 200, body := .whole { bytes := body.toList.map (·.toNat.toUInt8) } }
    if request.url = "/users/login" then (pair "la" "lr", ())
    else if request.url = "/users/refresh" then (pair "a1" "r1", ())
    else if request.bearer = some "a0" then (.ok { status := 401, body := .whole {} }, ())
    else (.ok { status := 200, body := .whole {} }, ())

/-- A caller and somebody who signs in. -/
def two : Lobby Unit Unit Unit :=
  begin { service := (), tokens := ⟨"a0", "r0"⟩ } (fun _ => .get "/duel") fun _ => ("bob", "pw")

/-- An order in which they move: the caller has just been granted a pair when the other one signs
in. -/
def crossing : List (Unit ⊕ Unit) :=
  [.inl (), .inl (), .inl (), .inl (), .inl (), .inr (), .inr ()]

/-- The refresh of the caller replaces the pair of the sign-in. -/
theorem refresh_replaces_crossing :
    ((two.run granting crossing).call ()).pair? = some ⟨"a1", "r1"⟩ ∧
      ∃ q us vs ws, crossing = us ++ .inl () :: (vs ++ .inl () :: ws) ∧
        (two.run granting us).call () = .deciding q (two.run granting us).tokens.access ∧
        (((two.run granting us).run granting (.inl () :: vs)).call ()).request? "" =
          some (.refresh "" (two.run granting us).tokens.refresh) ∧
        (two.run granting crossing).tokens = ((two.run granting us).signedIn granting
          (.inl () :: (vs ++ .inl () :: ws))).getLast?.getD (two.run granting us).tokens ∧
        ((two.run granting crossing).move granting (.inl ())).tokens = ⟨"a1", "r1"⟩ :=
  have h : ((two.run granting crossing).call ()).pair? = some ⟨"a1", "r1"⟩ := by decide +kernel
  ⟨h, refresh_replaces granting { service := (), tokens := ⟨"a0", "r0"⟩ } (fun _ => .get "/duel")
    (fun _ => ("bob", "pw")) crossing () ⟨"a1", "r1"⟩ h⟩

/-- The pair of a sign-in is replaced by one that was granted for the tokens before. -/
theorem signed_in_pair_lost :
    ((two.run granting (crossing.take 4)).call ()).spent? = some "r0" ∧
      two.signedIn granting crossing = [⟨"la", "lr"⟩] ∧
      (two.run granting crossing).tokens = ⟨"la", "lr"⟩ ∧
      ((two.run granting crossing).call ()).pair? = some ⟨"a1", "r1"⟩ ∧
      ((two.run granting crossing).move granting (.inl ())).tokens = ⟨"a1", "r1"⟩ := by
  decide +kernel

end Lobby
end Duelist
