import Stargate.Base.Sessions

/-!
# Refresh tokens

A refresh token is stored in Redis as its hash, under the ids that stand in the token.
`refresh` reads the hash, compares it, deletes the key and then issues a new token, each as
a command of its own.

- `program`: any number of calls of `refresh` and `logout`, command by command, beside
  logins and keys that expire;
- `alone`: while a call stands between its `GET` and its `DEL` of a token, no other call
  gets past its own `GET` of it;
- `single_use`: then each token is redeemed once, and not after its key was deleted;
- `redeemed_twice`: without it, a token is redeemed by two calls.
-/

namespace Stargate.Auth

open Base

/-! ## Tokens -/

/-- `parseRefresh(token)`: the first two of the parts between the points. -/
def parseRefresh (token : String) : Option (String × String) :=
  match token.toList.splitOn '.' with
  | merchantId :: tokenId :: _ =>
    if merchantId = [] ∨ tokenId = [] then none
    else some (String.ofList merchantId, String.ofList tokenId)
  | _ => none

/-- `refresh:${merchantId}:${tokenId}`. -/
def refreshKey (merchantId tokenId : String) : String :=
  "refresh:" ++ merchantId ++ ":" ++ tokenId

/-- The key of a token that can be parsed. -/
def keyOf (token : String) : String :=
  match parseRefresh token with
  | some (merchantId, tokenId) => refreshKey merchantId tokenId
  | none => ""

/-- `${merchant.id}.${tokenId}.${secret}`. -/
def newToken (merchantId tokenId secret : String) : String :=
  merchantId ++ "." ++ tokenId ++ "." ++ secret

/-- `stored !== this.hashRefresh(refreshToken)`, and before it `!stored`. -/
def isStored (hashRefresh : String → String) (stored : Option String) (token : String) : Bool :=
  match stored with
  | some stored => stored != "" && stored == hashRefresh token
  | none => false

/-! ## Calls -/

/-- The command that a call of `refresh` is about to run. -/
inductive Pc where
  | get
  | del
  | findOne
  | set (merchantId : String)
  deriving DecidableEq

inductive Call where
  | idle
  /-- `late`: the key of the token had been deleted when the call started. -/
  | refreshing (token : String) (late : Bool) (pc : Pc)
  | loggingOut (token : String)
  | refreshed (token : String) (late : Bool) (newToken : String)
  | loggedOut
  | threw
  deriving DecidableEq

/-- Nothing runs. -/
def Call.resting : Call → Bool
  | .refreshing .. | .loggingOut _ => false
  | _ => true

/-- The keys of Redis; the tokens that were issued, those that a call has redeemed, and
those whose key was deleted after they were issued. -/
structure World where
  redis : String → Option String
  issued : List String
  redeemed : List String
  spent : List String

inductive Input where
  | refresh (token : Option String)
  | logout (token : Option String)
  /-- Whether `findOne` finds the merchant, and random bytes. -/
  | exec (found : Bool) (tokenId secret : String)
  /-- A command fails, or the process dies. -/
  | throw
  deriving DecidableEq

inductive Event where
  /-- A login or a registration. -/
  | issue (merchantId tokenId secret : String)
  | expire (key : String)

/-- The `SET` of `issueTokens`. Random tokens do not repeat. -/
def issue (hashRefresh : String → String) (w : World) (merchantId tokenId secret : String) :
    Option World :=
  let token := newToken merchantId tokenId secret
  if w.issued.contains token then none
  else some { w with
    redis := Function.update w.redis (refreshKey merchantId tokenId) (some (hashRefresh token))
    issued := w.issued ++ [token] }

/-- The `DEL` of the key of a token. -/
def delKey (w : World) (token : String) : World :=
  { w with
    redis := Function.update w.redis (keyOf token) none
    spent := if w.issued.contains token then w.spent ++ [token] else w.spent }

/-- The next command of `refresh`. -/
def Pc.exec (hashRefresh : String → String) (found : Bool) (tokenId secret : String)
    (w : World) (token : String) (late : Bool) : Pc → Option (World × Call)
  | .get =>
    if isStored hashRefresh (w.redis (keyOf token)) token then
      some (w, .refreshing token late .del)
    else some (w, .threw)
  | .del => some (delKey w token, .refreshing token late .findOne)
  | .findOne =>
    match found, parseRefresh token with
    | true, some (merchantId, _) => some (w, .refreshing token late (.set merchantId))
    | _, _ => some (w, .threw)
  | .set merchantId =>
    (issue hashRefresh w merchantId tokenId secret).map fun w =>
      ({ w with redeemed := w.redeemed ++ [token] },
        .refreshed token late (newToken merchantId tokenId secret))

/-- Any number of calls, beside logins and expiry. -/
def program (hashRefresh : String → String) : Program World Call Input Event where
  exec _
    | .refresh token, w, c =>
      if c.resting then
        match token with
        | none => some (w, .threw)
        | some token =>
          if token = "" ∨ parseRefresh token = none then some (w, .threw)
          else some (w, .refreshing token (w.spent.contains token) .get)
      else none
    | .logout token, w, c =>
      if c.resting then
        match token with
        | none => some (w, .loggedOut)
        | some token =>
          if token = "" then some (w, .loggedOut)
          else if parseRefresh token = none then some (w, .threw)
          else some (w, .loggingOut token)
      else none
    | .exec found tokenId secret, w, .refreshing token late pc =>
      pc.exec hashRefresh found tokenId secret w token late
    | .exec _ _ _, w, .loggingOut token => some (delKey w token, .loggedOut)
    | .throw, w, c => if c.resting then none else some (w, .threw)
    | _, _, _ => none
  env
    | .issue merchantId tokenId secret, w => issue hashRefresh w merchantId tokenId secret
    | .expire key, w => some { w with redis := Function.update w.redis key none }

/-- Nobody has logged in yet. -/
def idle (n : Nat) : Program.Sys World Call n where
  db := ⟨fun _ => none, [], [], []⟩
  calls _ := .idle

/-! ## What a step can do -/

section Moves

variable {hashRefresh : String → String} {others : List Call} {i : Input} {w w' : World}
  {c c' : Call} {token : String} {e : Event}

/-- The steps of a call. -/
inductive Moves (hashRefresh : String → String) : World → Call → World → Call → Prop
  | started {token : String} {w : World} {c : Call} :
      Moves hashRefresh w c w (.refreshing token (w.spent.contains token) .get)
  | rested {w : World} {c c' : Call} (hrest : c' = .threw ∨ c' = .loggedOut) :
      Moves hashRefresh w c w c'
  | leaving {token : String} {w : World} {c : Call} :
      Moves hashRefresh w c w (.loggingOut token)
  | got {token : String} {late : Bool} {w : World}
      (hstored : w.redis (keyOf token) = some (hashRefresh token)) :
      Moves hashRefresh w (.refreshing token late .get) w (.refreshing token late .del)
  | deleted {token : String} {late : Bool} {w : World} :
      Moves hashRefresh w (.refreshing token late .del) (delKey w token)
        (.refreshing token late .findOne)
  | found {token merchantId : String} {late : Bool} {w : World} :
      Moves hashRefresh w (.refreshing token late .findOne) w
        (.refreshing token late (.set merchantId))
  | issued {token merchantId tokenId secret : String} {late : Bool} {w w₁ : World}
      (hissue : issue hashRefresh w merchantId tokenId secret = some w₁) :
      Moves hashRefresh w (.refreshing token late (.set merchantId))
        { w₁ with redeemed := w₁.redeemed ++ [token] }
        (.refreshed token late (newToken merchantId tokenId secret))
  | loggedOut {token : String} {w : World} :
      Moves hashRefresh w (.loggingOut token) (delKey w token) .loggedOut

theorem isStored_eq_true {stored : Option String} (h : isStored hashRefresh stored token = true) :
    stored = some (hashRefresh token) := by
  cases stored with
  | none => cases h
  | some stored =>
    simp only [isStored, Bool.and_eq_true, beq_iff_eq] at h
    exact congrArg some h.2

/-- **What a step can do.** -/
theorem moves_of_exec (h : (program hashRefresh).exec others i w c = some (w', c')) :
    Moves hashRefresh w c w' c' := by
  cases i with
  | refresh token =>
    simp only [program] at h
    split at h
    · cases token with
      | none =>
        cases h
        exact .rested (.inl rfl)
      | some token =>
        dsimp only at h
        split at h
        · cases h
          exact .rested (.inl rfl)
        · cases h
          exact .started
    · cases h
  | logout token =>
    simp only [program] at h
    split at h
    · cases token with
      | none =>
        cases h
        exact .rested (.inr rfl)
      | some token =>
        dsimp only at h
        split at h
        · cases h
          exact .rested (.inr rfl)
        · split at h
          · cases h
            exact .rested (.inl rfl)
          · cases h
            exact .leaving
    · cases h
  | exec found tokenId secret =>
    cases c with
    | refreshing token late pc =>
      cases pc with
      | get =>
        simp only [program, Pc.exec] at h
        split at h
        · next hstored =>
          cases h
          exact .got (isStored_eq_true hstored)
        · cases h
          exact .rested (.inl rfl)
      | del =>
        cases h
        exact .deleted
      | findOne =>
        simp only [program, Pc.exec] at h
        split at h
        · cases h
          exact .found
        · cases h
          exact .rested (.inl rfl)
      | set merchantId =>
        obtain ⟨w₁, hissue, heq⟩ := Option.map_eq_some_iff.mp h
        cases heq
        exact .issued hissue
    | loggingOut token =>
      cases h
      exact .loggedOut
    | _ => cases h
  | throw =>
    simp only [program] at h
    split at h
    · cases h
    · cases h
      exact .rested (.inl rfl)

/-! ## Tokens that are gone -/

/-- The token was issued, and its key does not hold its hash any more. -/
structure Gone (hashRefresh : String → String) (token : String) (w : World) : Prop where
  issued : token ∈ w.issued
  key : w.redis (keyOf token) ≠ some (hashRefresh token)

theorem update_ne {f : String → Option String} {key key' : String} {value : Option String}
    {x : String} (hf : f key ≠ some x) (hvalue : value ≠ some x) :
    Function.update f key' value key ≠ some x := by
  by_cases hkey : key = key'
  · rw [hkey, Function.update_self]
    exact hvalue
  · rw [Function.update_of_ne hkey]
    exact hf

theorem issue_eq_some {merchantId tokenId secret : String}
    (h : issue hashRefresh w merchantId tokenId secret = some w') :
    newToken merchantId tokenId secret ∉ w.issued ∧ w' = { w with
      redis := Function.update w.redis (refreshKey merchantId tokenId)
        (some (hashRefresh (newToken merchantId tokenId secret)))
      issued := w.issued ++ [newToken merchantId tokenId secret] } := by
  simp only [issue] at h
  split at h
  · cases h
  · next hfresh =>
    cases h
    exact ⟨fun hmem => hfresh (List.contains_iff_mem.mpr hmem), rfl⟩

/-- A new token is another one. -/
theorem Gone.issue {merchantId tokenId secret : String} (hhash : Function.Injective hashRefresh)
    (h : Gone hashRefresh token w)
    (hissue : issue hashRefresh w merchantId tokenId secret = some w') :
    Gone hashRefresh token w' := by
  obtain ⟨hfresh, rfl⟩ := issue_eq_some hissue
  refine ⟨List.mem_append_left _ h.issued, update_ne h.key fun heq => hfresh ?_⟩
  rw [hhash (Option.some.inj heq)]
  exact h.issued

theorem Gone.delKey (h : Gone hashRefresh token w) (token' : String) :
    Gone hashRefresh token (delKey w token') :=
  ⟨h.issued, update_ne h.key nofun⟩

theorem gone_delKey (h : token ∈ w.issued) : Gone hashRefresh token (delKey w token) where
  issued := h
  key := by
    show Function.update w.redis (keyOf token) none (keyOf token) ≠ _
    rw [Function.update_self]
    exact nofun

/-- **What is gone stays gone.** -/
theorem Gone.moves (hhash : Function.Injective hashRefresh) (h : Gone hashRefresh token w)
    (hmoves : Moves hashRefresh w c w' c') : Gone hashRefresh token w' := by
  cases hmoves with
  | deleted => exact h.delKey _
  | issued hissue =>
    have hgone := h.issue hhash hissue
    exact ⟨hgone.issued, hgone.key⟩
  | loggedOut => exact h.delKey _
  | _ => exact h

theorem Gone.event (hhash : Function.Injective hashRefresh) (h : Gone hashRefresh token w)
    (henv : (program hashRefresh).env e w = some w') : Gone hashRefresh token w' := by
  cases e with
  | issue merchantId tokenId secret => exact h.issue hhash henv
  | expire key =>
    cases henv
    exact ⟨h.issued, update_ne h.key nofun⟩

theorem issued_moves (hmoves : Moves hashRefresh w c w' c') (h : token ∈ w.issued) :
    token ∈ w'.issued := by
  cases hmoves with
  | issued hissue =>
    obtain ⟨-, rfl⟩ := issue_eq_some hissue
    exact List.mem_append_left _ h
  | _ => exact h

theorem mem_spent_delKey {token' : String} :
    token ∈ (delKey w token').spent ↔
      token ∈ w.spent ∨ token = token' ∧ token' ∈ w.issued := by
  unfold delKey
  dsimp only
  split
  · next hissued =>
    rw [List.mem_append, List.mem_singleton]
    exact or_congr_right ⟨fun h => ⟨h, List.contains_iff_mem.mp hissued⟩, And.left⟩
  · next hnot =>
    refine ⟨.inl, fun h => h.resolve_right fun h => hnot ?_⟩
    exact List.contains_iff_mem.mpr h.2

theorem spent_moves (hmoves : Moves hashRefresh w c w' c') (h : token ∈ w.spent) :
    token ∈ w'.spent := by
  cases hmoves with
  | deleted => exact mem_spent_delKey.mpr (.inl h)
  | loggedOut => exact mem_spent_delKey.mpr (.inl h)
  | issued hissue =>
    obtain ⟨-, rfl⟩ := issue_eq_some hissue
    exact h
  | _ => exact h

/-! ## Late calls -/

/-- The key of a spent token is gone. -/
def SpentGone (hashRefresh : String → String) (token : String) (w : World) : Prop :=
  token ∈ w.spent → Gone hashRefresh token w

/-- A late call does not get past its `GET`. -/
def OnTime (token : String) (w : World) : Call → Prop
  | .refreshing token' late pc => token' = token → late = true → token ∈ w.spent ∧ pc = .get
  | .refreshed token' late _ => token' = token → late = false
  | _ => True

theorem spentGone_delKey (h : SpentGone hashRefresh token w) (token' : String) :
    SpentGone hashRefresh token (delKey w token') := by
  intro hspent
  rcases mem_spent_delKey.mp hspent with hspent | ⟨rfl, hissued⟩
  · exact (h hspent).delKey token'
  · exact gone_delKey hissued

theorem late_moves (hhash : Function.Injective hashRefresh)
    (hmoves : Moves hashRefresh w c w' c') (hw : SpentGone hashRefresh token w)
    (hc : OnTime token w c) : SpentGone hashRefresh token w' ∧ OnTime token w' c' := by
  cases hmoves with
  | started => exact ⟨hw, fun heq hlate => ⟨heq ▸ List.contains_iff_mem.mp hlate, rfl⟩⟩
  | rested hrest =>
    rcases hrest with rfl | rfl
    · exact ⟨hw, trivial⟩
    · exact ⟨hw, trivial⟩
  | leaving => exact ⟨hw, trivial⟩
  | got hstored =>
    refine ⟨hw, fun heq hlate => ?_⟩
    cases heq
    exact absurd hstored (hw (hc rfl hlate).1).key
  | deleted => exact ⟨spentGone_delKey hw _, fun heq hlate => nomatch (hc heq hlate).2⟩
  | found => exact ⟨hw, fun heq hlate => nomatch (hc heq hlate).2⟩
  | issued hissue =>
    obtain ⟨-, hw₁⟩ := issue_eq_some hissue
    refine ⟨fun hspent => ?_, fun heq => ?_⟩
    · rw [hw₁] at hspent
      have hgone := (hw hspent).issue hhash hissue
      exact ⟨hgone.issued, hgone.key⟩
    · exact Bool.eq_false_iff.mpr fun hlate => nomatch (hc heq hlate).2
  | loggedOut => exact ⟨spentGone_delKey hw _, trivial⟩

/-- **Late calls are rejected**, in every run. -/
theorem late_local (hhash : Function.Injective hashRefresh) (token : String) :
    (program hashRefresh).Local .free (SpentGone hashRefresh token) (OnTime token)
      fun _ _ => True where
  symm _ _ _ := trivial
  seq := by
    intro cs i w c w' c' hexec _ hw hc _
    exact late_moves hhash (moves_of_exec hexec) hw hc
  free := by
    intro cs i w c w' c' hexec _ _ _ o _ ho _
    refine ⟨?_, trivial⟩
    cases o with
    | refreshing token' late pc =>
      exact fun heq hlate => ⟨spent_moves (moves_of_exec hexec) (ho heq hlate).1, (ho heq hlate).2⟩
    | refreshed token' late new => exact ho
    | _ => trivial
  env := by
    intro cs e w w' henv _ hw hcs
    have hspent : w'.spent = w.spent := by
      cases e with
      | issue merchantId tokenId secret =>
        obtain ⟨-, rfl⟩ := issue_eq_some henv
        rfl
      | expire key =>
        cases henv
        rfl
    refine ⟨fun hmem => (hw (hspent ▸ hmem)).event hhash henv, fun o ho => ?_⟩
    have hQ := hcs o ho
    cases o with
    | refreshing token' late pc =>
      exact fun heq hlate => ⟨hspent ▸ (hQ heq hlate).1, (hQ heq hlate).2⟩
    | refreshed token' late new => exact hQ
    | _ => trivial

/-! ## Calls that redeem one token -/

/-- The call has found the token, and has not deleted its key yet. -/
def Call.atDel (token : String) : Call → Bool
  | .refreshing token' _ .del => token' == token
  | _ => false

/-- The call is about to read the token. -/
def Call.atGet (token : String) : Call → Bool
  | .refreshing token' _ .get => token' == token
  | _ => false

/-- A command runs. -/
def Input.isExec : Input → Bool
  | .exec _ _ _ => true
  | _ => false

/-- While a call stands between its `GET` and its `DEL` of the token, no other call of
`refresh` reads it. -/
def alone (token : String) : Program.Guard World Call Input Event where
  call others i _ c :=
    i.isExec = true → c.atGet token = true → ∀ o ∈ others, o.atDel token = false
  env _ _ _ := True

instance decidableAloneCall (token : String) (others : List Call) (i : Input) (w : World)
    (c : Call) : Decidable ((alone token).call others i w c) :=
  inferInstanceAs (Decidable (_ → _ → _))

instance decidableAloneEnv (token : String) (cs : List Call) (e : Event) (w : World) :
    Decidable ((alone token).env cs e w) := isTrue trivial

/-- The call has found the token. -/
def Past (token : String) : Call → Prop
  | .refreshing token' _ .del => token' = token
  | .refreshing token' _ .findOne => token' = token
  | .refreshing token' _ (.set _) => token' = token
  | _ => False

/-- A token is redeemed once, and its key is gone then. -/
structure Once (hashRefresh : String → String) (token : String) (w : World) : Prop where
  stored : w.redis (keyOf token) = some (hashRefresh token) → token ∈ w.issued
  once : w.redeemed.count token ≤ 1
  gone : token ∈ w.redeemed → Gone hashRefresh token w

/-- The token that a call has found is not redeemed; after the `DEL` its key is gone. -/
def Redeems (hashRefresh : String → String) (token : String) (w : World) : Call → Prop
  | .refreshing token' _ .del =>
    token' = token → token ∈ w.issued ∧ token ∉ w.redeemed
  | .refreshing token' _ .findOne =>
    token' = token → Gone hashRefresh token w ∧ token ∉ w.redeemed
  | .refreshing token' _ (.set _) =>
    token' = token → Gone hashRefresh token w ∧ token ∉ w.redeemed
  | _ => True

theorem update_eq {f : String → Option String} {key key' x : String} {value : Option String}
    (h : Function.update f key' value key = some x) : f key = some x ∨ value = some x := by
  by_cases hkey : key = key'
  · rw [hkey, Function.update_self] at h
    exact .inr h
  · rw [Function.update_of_ne hkey] at h
    exact .inl h

theorem Once.delKey (h : Once hashRefresh token w) (token' : String) :
    Once hashRefresh token (delKey w token') where
  stored hstored := h.stored ((update_eq hstored).resolve_right nofun)
  once := h.once
  gone hmem := (h.gone hmem).delKey token'

theorem Once.issue {merchantId tokenId secret : String}
    (hhash : Function.Injective hashRefresh) (h : Once hashRefresh token w)
    (hissue : issue hashRefresh w merchantId tokenId secret = some w') :
    Once hashRefresh token w' := by
  have hgone := fun hmem => (h.gone hmem).issue hhash hissue
  obtain ⟨-, rfl⟩ := issue_eq_some hissue
  refine ⟨fun hstored => ?_, h.once, hgone⟩
  rcases update_eq hstored with hstored | hnew
  · exact List.mem_append_left _ (h.stored hstored)
  · rw [← hhash (Option.some.inj hnew)]
    exact List.mem_append_right _ List.mem_cons_self

/-- A call that was alone with the token has redeemed it. -/
theorem Once.redeem (h : Once hashRefresh token w) {token' : String}
    (hgone : token' = token → Gone hashRefresh token w ∧ token ∉ w.redeemed) :
    Once hashRefresh token { w with redeemed := w.redeemed ++ [token'] } := by
  refine ⟨h.stored, ?_, fun hmem => ?_⟩
  · show (w.redeemed ++ [token']).count token ≤ 1
    rw [List.count_append, List.count_singleton]
    split
    · next heq =>
      rw [List.count_eq_zero.mpr (hgone (beq_iff_eq.mp heq)).2]
    · exact h.once
  · rcases List.mem_append.mp hmem with hmem | hmem
    · exact ⟨(h.gone hmem).issued, (h.gone hmem).key⟩
    · obtain ⟨hg, -⟩ := hgone (List.mem_singleton.mp hmem).symm
      exact ⟨hg.issued, hg.key⟩

theorem redeemed_issue {merchantId tokenId secret : String}
    (hissue : issue hashRefresh w merchantId tokenId secret = some w') :
    w'.redeemed = w.redeemed := by
  obtain ⟨-, rfl⟩ := issue_eq_some hissue
  rfl

theorem once_moves (hhash : Function.Injective hashRefresh)
    (hmoves : Moves hashRefresh w c w' c') (hw : Once hashRefresh token w)
    (hc : Redeems hashRefresh token w c) :
    Once hashRefresh token w' ∧ Redeems hashRefresh token w' c' := by
  cases hmoves with
  | started => exact ⟨hw, trivial⟩
  | rested hrest =>
    rcases hrest with rfl | rfl
    · exact ⟨hw, trivial⟩
    · exact ⟨hw, trivial⟩
  | leaving => exact ⟨hw, trivial⟩
  | got hstored =>
    refine ⟨hw, fun heq => ?_⟩
    cases heq
    exact ⟨hw.stored hstored, fun hmem => (hw.gone hmem).key hstored⟩
  | deleted =>
    refine ⟨hw.delKey _, fun heq => ?_⟩
    cases heq
    exact ⟨gone_delKey (hc rfl).1, (hc rfl).2⟩
  | found => exact ⟨hw, hc⟩
  | issued hissue =>
    refine ⟨(hw.issue hhash hissue).redeem fun heq => ?_, trivial⟩
    rw [redeemed_issue hissue]
    exact ⟨(hc heq).1.issue hhash hissue, (hc heq).2⟩
  | loggedOut => exact ⟨hw.delKey _, trivial⟩

/-- A step of another call, which has not found the token, does not redeem it. -/
theorem notMem_redeemed {o : Call} (hmoves : Moves hashRefresh w c w' c')
    (hapart : ¬ (Past token c ∧ Past token o)) (ho : Past token o)
    (h : token ∉ w.redeemed) : token ∉ w'.redeemed := by
  cases hmoves with
  | issued hissue =>
    intro hmem
    rw [redeemed_issue hissue] at hmem
    rcases List.mem_append.mp hmem with hmem | hmem
    · exact h hmem
    · exact hapart ⟨(List.mem_singleton.mp hmem).symm, ho⟩
  | _ => exact h

theorem Redeems.other {o : Call} (hhash : Function.Injective hashRefresh)
    (hmoves : Moves hashRefresh w c w' c') (ho : Redeems hashRefresh token w o)
    (hapart : ¬ (Past token c ∧ Past token o)) : Redeems hashRefresh token w' o := by
  cases o with
  | refreshing token' late pc =>
    cases pc with
    | get => trivial
    | del =>
      exact fun heq => ⟨issued_moves hmoves (ho heq).1,
        notMem_redeemed hmoves hapart heq (ho heq).2⟩
    | findOne =>
      exact fun heq => ⟨(ho heq).1.moves hhash hmoves,
        notMem_redeemed hmoves hapart heq (ho heq).2⟩
    | set merchantId =>
      exact fun heq => ⟨(ho heq).1.moves hhash hmoves,
        notMem_redeemed hmoves hapart heq (ho heq).2⟩
  | _ => trivial

/-- What another call has found, a call that is about to redeem it does not find. -/
theorem not_past_got {o : Call} (hstored : w.redis (keyOf token) = some (hashRefresh token))
    (ho : Redeems hashRefresh token w o) (hdel : o.atDel token = false) : ¬ Past token o := by
  intro hpast
  cases o with
  | refreshing token' late pc =>
    cases pc with
    | get => exact hpast
    | del =>
      cases hpast
      simp [Call.atDel] at hdel
    | findOne => exact (ho hpast).1.key hstored
    | set merchantId => exact (ho hpast).1.key hstored
  | _ => exact hpast

/-- A call gets past its `GET` only where no other call has. -/
theorem apart_moves {o : Call} (hmoves : Moves hashRefresh w c w' c')
    (hdel : ∀ late, c = .refreshing token late .get → Past token c' → o.atDel token = false)
    (ho : Redeems hashRefresh token w o) (hapart : ¬ (Past token c ∧ Past token o)) :
    ¬ (Past token c' ∧ Past token o) := by
  rintro ⟨hpast, hpast'⟩
  cases hmoves with
  | got hstored =>
    cases hpast
    exact not_past_got hstored ho (hdel _ rfl rfl) hpast'
  | deleted => exact hapart ⟨hpast, hpast'⟩
  | found => exact hapart ⟨hpast, hpast'⟩
  | rested hrest =>
    rcases hrest with rfl | rfl
    · exact hpast
    · exact hpast
  | _ => exact hpast

theorem Once.event (hhash : Function.Injective hashRefresh) (h : Once hashRefresh token w)
    (henv : (program hashRefresh).env e w = some w') : Once hashRefresh token w' := by
  cases e with
  | issue merchantId tokenId secret => exact h.issue hhash henv
  | expire key =>
    cases henv
    exact ⟨fun hstored => h.stored ((update_eq hstored).resolve_right nofun), h.once,
      fun hmem => ⟨(h.gone hmem).issued, update_ne (h.gone hmem).key nofun⟩⟩

theorem Redeems.event {o : Call} (hhash : Function.Injective hashRefresh)
    (ho : Redeems hashRefresh token w o)
    (henv : (program hashRefresh).env e w = some w') : Redeems hashRefresh token w' o := by
  have hissued : token ∈ w.issued → token ∈ w'.issued := fun hmem => by
    cases e with
    | issue merchantId tokenId secret =>
      obtain ⟨-, rfl⟩ := issue_eq_some henv
      exact List.mem_append_left _ hmem
    | expire key =>
      cases henv
      exact hmem
  have hredeemed : w'.redeemed = w.redeemed := by
    cases e with
    | issue merchantId tokenId secret => exact redeemed_issue henv
    | expire key =>
      cases henv
      rfl
  cases o with
  | refreshing token' late pc =>
    cases pc with
    | get => trivial
    | del => exact fun heq => ⟨hissued (ho heq).1, hredeemed ▸ (ho heq).2⟩
    | findOne => exact fun heq => ⟨(ho heq).1.event hhash henv, hredeemed ▸ (ho heq).2⟩
    | set merchantId => exact fun heq => ⟨(ho heq).1.event hhash henv, hredeemed ▸ (ho heq).2⟩
  | _ => trivial

/-- **A call that is alone with a token redeems it alone.** -/
theorem once_local (hhash : Function.Injective hashRefresh) (token : String) :
    (program hashRefresh).Local (alone token) (Once hashRefresh token)
      (Redeems hashRefresh token) fun a b => ¬ (Past token a ∧ Past token b) where
  symm a b h := fun hab => h hab.symm
  seq := by
    intro cs i w c w' c' hexec _ hw hc _
    exact once_moves hhash (moves_of_exec hexec) hw hc
  free := by
    intro cs i w c w' c' hexec hg _ _ o ho hQ hapart
    have hmoves := moves_of_exec hexec
    refine ⟨hQ.other hhash hmoves hapart, apart_moves hmoves (fun late hget hpast => ?_) hQ hapart⟩
    subst hget
    cases i with
    | exec found tokenId secret => exact hg rfl (beq_iff_eq.mpr rfl) o ho
    | throw =>
      cases hexec
      exact hpast.elim
    | _ => cases hexec
  env := by
    intro cs e w w' henv _ hw hcs
    exact ⟨hw.event hhash henv, fun o ho => (hcs o ho).event hhash henv⟩

/-! ## Single use -/

theorem inv_idle (n : Nat) : Program.Inv (Once hashRefresh token) (Redeems hashRefresh token)
    (fun a b => ¬ (Past token a ∧ Past token b)) (idle n) where
  db := ⟨nofun, Nat.zero_le 1, nofun⟩
  calls _ := trivial
  apart _ _ _ h := h.1

theorem late_idle (n : Nat) : Program.Inv (SpentGone hashRefresh token) (OnTime token)
    (fun _ _ => True) (idle n) where
  db := nofun
  calls _ := trivial
  apart _ _ _ := trivial

/-- **A refresh token is used once**: where calls stand alone with a token between their
`GET` and their `DEL` of it, one call at most redeems it, and no call that starts after its
key was deleted does. -/
theorem single_use (hhash : Function.Injective hashRefresh) {n : Nat}
    {as : List (Program.Label Input Event n)} {t : Program.Sys World Call n} (token : String)
    (hg : ((program hashRefresh).interleave n).Guarded (alone token).admits (idle n) as)
    (hrun : ((program hashRefresh).interleave n).run (idle n) as = some t) :
    t.db.redeemed.count token ≤ 1 ∧ ∀ k new, t.calls k ≠ .refreshed token true new := by
  have honce := (once_local hhash token).inv_of_guarded_run (inv_idle n) hg hrun
  have hlate := (late_local hhash token).inv_of_run (late_idle n) hrun
  refine ⟨honce.db.once, fun k new hk => ?_⟩
  have htime := hlate.calls k
  rw [hk] at htime
  exact Bool.noConfusion (htime rfl)

end Moves

/-! ## Two calls with one token -/

/-- A hash that does not collide. -/
def prefixed (token : String) : String := "sha256:" ++ token

theorem prefixed_injective : Function.Injective prefixed :=
  fun _ _ h => (String.append_right_inj _).mp h

/-- A login, and two calls with the token that it issued. -/
def login : List (Program.Label Input Event 2) :=
  [.env (.issue "m" "1" "a"), .call 0 (.refresh (some "m.1.a")),
    .call 1 (.refresh (some "m.1.a"))]

/-- The next command of a call. -/
def next (k : Fin 2) (tokenId : String) : Program.Label Input Event 2 :=
  .call k (.exec true tokenId "a")

/-- Both calls read the token before either deletes its key. -/
theorem redeemed_twice : ∃ t : Program.Sys World Call 2,
    ((program prefixed).interleave 2).run (idle 2) (login ++
      [next 0 "", next 1 "", next 0 "", next 1 "", next 0 "", next 1 "", next 0 "2",
        next 1 "3"]) = some t ∧
    t.db.redeemed.count "m.1.a" = 2 ∧ t.calls 0 = .refreshed "m.1.a" false "m.2.a" ∧
    t.calls 1 = .refreshed "m.1.a" false "m.3.a" := by
  obtain ⟨t, hrun, hcount, h0, h1⟩ := ((program prefixed).interleave 2).exists_of_leadsTo
    (fun t => t.db.redeemed.count "m.1.a" = 2 ∧ t.calls 0 = .refreshed "m.1.a" false "m.2.a" ∧
      t.calls 1 = .refreshed "m.1.a" false "m.3.a") (idle 2) (login ++
      [next 0 "", next 1 "", next 0 "", next 1 "", next 0 "", next 1 "", next 0 "2",
        next 1 "3"]) (by decide +kernel)
  exact ⟨t, hrun, hcount, h0, h1⟩

/-- One after the other, the second call finds no key. -/
theorem single_use_inTurn : ∃ t : Program.Sys World Call 2,
    ((program prefixed).interleave 2).run (idle 2) (login ++
      [next 0 "", next 0 "", next 0 "", next 0 "2", next 1 ""]) = some t ∧
    t.calls 0 = .refreshed "m.1.a" false "m.2.a" ∧ t.calls 1 = .threw ∧
    t.db.redeemed.count "m.1.a" ≤ 1 := by
  obtain ⟨t, hrun, h0, h1⟩ := ((program prefixed).interleave 2).exists_of_leadsTo
    (fun t => t.calls 0 = .refreshed "m.1.a" false "m.2.a" ∧ t.calls 1 = .threw) (idle 2)
    (login ++ [next 0 "", next 0 "", next 0 "", next 0 "2", next 1 ""]) (by decide +kernel)
  exact ⟨t, hrun, h0, h1,
    (single_use prefixed_injective "m.1.a" (by decide +kernel) hrun).1⟩

end Stargate.Auth
