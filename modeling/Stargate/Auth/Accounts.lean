import Stargate.Auth.RefreshTokens
import Stargate.Base.StringOrder
import Stargate.TeamMembers.Logins

/-!
# Accounts and their sessions (`AuthService`, `MerchantsService.create`, `findByEmail`)

A merchant registers with an email and a password, and logs in with them. Both hand out a refresh
token, and so does a refresh for another refresh token. Redis keeps the hash of a token for seven
days.

- `program`: any number of calls, statement by statement, the clock, and keys that Redis drops;
- `authenticate`: who a login is for;
- `authenticate_iff`: an email belongs to its first registration, with the password of that;
- `Chain`: how a token was handed out, back to a password;
- `chain_of_answered`: every token goes back to the password of its merchant, through refreshes
  that were each within seven days.
-/

namespace Stargate.Auth.Accounts

open Base
open TeamMembers (Crypto hashPassword verifyPassword isHex Exact)

/-! ## Rows and requests -/

/-- The columns of `merchants` that `AuthService` reads. -/
structure Merchant where
  id : String
  email : String
  passwordHash : String
  name : String
  deriving DecidableEq

/-- `PRIMARY KEY (id)` and `UNIQUE (email)`. -/
instance keyedMerchant : Keyed Merchant where
  Key := String × String
  key m := (m.id, m.email)
  Clash a b := a.1 = b.1 ∨ a.2 = b.2
  clash_symm h := h.imp Eq.symm Eq.symm
  decClash _ _ := inferInstanceAs (Decidable (_ ∨ _))

/-- A body; `none` where a field is missing or no string. -/
structure Body where
  email : Option String
  password : Option String
  name : Option String := none
  deriving DecidableEq

/-- What the service takes from outside: `isEmail` is the check of `z.string().email()`. -/
structure Outside where
  crypto : Crypto
  isEmail : String → Bool

/-- `registerSchema.parse(input)`. -/
def registerSchema (env : Outside) (input : Body) : Option (String × String × String) := do
  let email ← input.email.filter env.isEmail
  let password ← input.password.filter fun s => 12 ≤ (utf16 s).length
  let name ← input.name.filter fun s => 1 ≤ (utf16 s).length
  return (email, password, name)

/-- `loginSchema.parse(input)`. -/
def loginSchema (env : Outside) (input : Body) : Option (String × String) := do
  let email ← input.email.filter env.isEmail
  let password ← input.password.filter fun s => 1 ≤ (utf16 s).length
  return (email, password)

/-! ## Calls -/

/-- The command that a call of `refresh` is about to run. -/
inductive Pc where
  | get
  | del
  | findOne
  deriving DecidableEq

/-- What a call has shown for the token that it is to hand out. -/
inductive Grant where
  | password (email password : String)
  | token (refreshToken : String)
  deriving DecidableEq

inductive Call where
  | idle
  /-- The `INSERT` of `create` is next. -/
  | registering (email password name : String)
  /-- The `SELECT` of `findByEmail` is next. -/
  | loggingIn (email password : String)
  | refreshing (refreshToken : String) (pc : Pc)
  /-- The `SET` of `issueTokens` is next. -/
  | issuing (merchantId : String) (grant : Grant)
  | loggingOut (refreshToken : String)
  | answered (merchantId refreshToken : String) (grant : Grant)
  | loggedOut
  | threw
  deriving DecidableEq

/-- Nothing runs. -/
def Call.resting : Call → Bool
  | .idle | .answered .. | .loggedOut | .threw => true
  | _ => false

/-- The table, Redis with the times its keys expire at, and the clock, in milliseconds. -/
structure World where
  merchants : Table Merchant
  redis : String → Option (String × Nat)
  now : Nat

/-- What a statement takes from random generators. -/
structure Random where
  uuid : String
  salt : String
  tokenId : String
  secret : String
  deriving DecidableEq

/-- An id has no point in it, and the salt and the parts of a token are hexadecimal. -/
def Random.valid (r : Random) : Bool :=
  !r.uuid.isEmpty && !r.uuid.toList.contains '.' && isHex r.salt && !r.tokenId.isEmpty &&
    isHex r.tokenId && isHex r.secret

inductive Input where
  | register (input : Body)
  | login (input : Body)
  | refresh (refreshToken : Option String)
  | logout (refreshToken : Option String)
  | exec (r : Random)
  /-- A statement fails, or the process dies. -/
  | throw
  deriving DecidableEq

inductive Event where
  | tick (ms : Nat)
  /-- Redis drops a key before its time. -/
  | evict (key : String)

section Program

variable (env : Outside)

/-- `EX 7 * 24 * 60 * 60`, in milliseconds. -/
def refreshTtl : Nat := 7 * 24 * 60 * 60 * 1000

/-- `GET`. -/
def World.get (w : World) (key : String) : Option String :=
  (w.redis key).bind fun (value, expiresAt) => if w.now < expiresAt then some value else none

/-- `login` up to `issueTokens`: the merchant. -/
def authenticate (w : World) (email password : String) : Option String :=
  match w.merchants.find? fun m => m.email == email with
  | some merchant =>
    if verifyPassword env.crypto password merchant.passwordHash then some merchant.id else none
  | none => none

/-- The first statement of a call, if its input is accepted. -/
def Input.start : Input → Option Call
  | .register input =>
    match registerSchema env input with
    | some (email, password, name) => some (.registering email password name)
    | none => some .threw
  | .login input =>
    match loginSchema env input with
    | some (email, password) => some (.loggingIn email password)
    | none => some .threw
  | .refresh refreshToken =>
    match refreshToken.filter (· ≠ "") with
    | some token => some (if parseRefresh token = none then .threw else .refreshing token .get)
    | none => some .threw
  | .logout refreshToken =>
    match refreshToken.filter (· ≠ "") with
    | some token => some (if parseRefresh token = none then .threw else .loggingOut token)
    | none => some .loggedOut
  | .exec _ | .throw => none

/-- The next statement of a call. -/
def Call.exec (r : Random) (w : World) : Call → Option (World × Call)
  | .registering email password name =>
    match w.merchants.insert?
        ⟨r.uuid, email, hashPassword env.crypto password r.salt, name⟩ with
    | some merchants =>
      some ({ w with merchants }, .issuing r.uuid (.password email password))
    | none => some (w, .threw)
  | .loggingIn email password =>
    match authenticate env w email password with
    | some merchantId => some (w, .issuing merchantId (.password email password))
    | none => some (w, .threw)
  | .refreshing token .get =>
    if isStored env.crypto.sha256 (w.get (keyOf token)) token then
      some (w, .refreshing token .del)
    else some (w, .threw)
  | .refreshing token .del =>
    some ({ w with redis := Function.update w.redis (keyOf token) none },
      .refreshing token .findOne)
  | .refreshing token .findOne =>
    match parseRefresh token with
    | some (merchantId, _) =>
      if w.merchants.rows.any fun m => m.id == merchantId then
        some (w, .issuing merchantId (.token token))
      else some (w, .threw)
    | none => some (w, .threw)
  | .issuing merchantId grant =>
    let token := newToken merchantId r.tokenId r.secret
    some ({ w with
      redis := Function.update w.redis (refreshKey merchantId r.tokenId)
        (some (env.crypto.sha256 token, w.now + refreshTtl)) },
      .answered merchantId token grant)
  | .loggingOut token =>
    some ({ w with redis := Function.update w.redis (keyOf token) none }, .loggedOut)
  | .idle | .answered .. | .loggedOut | .threw => none

/-- Any number of calls. -/
def program : Program World Call Input Event where
  exec _
    | .exec r, w, c => if r.valid then c.exec env r w else none
    | .throw, w, c => if c.resting then none else some (w, .threw)
    | i, w, c => if c.resting then (i.start env).map fun c => (w, c) else none
  env
    | .tick ms, w => some { w with now := w.now + ms }
    | .evict key, w => some { w with redis := Function.update w.redis key none }

end Program

/-- Nobody has registered yet. -/
def start (n : Nat) : Program.Sys World Call n where
  db := ⟨.empty, fun _ => none, 0⟩
  calls _ := .idle

/-! ## What a statement does -/

section Moves

variable {env : Outside} {r : Random} {others : List Call} {i : Input} {w w' : World}
  {c c' : Call}

/-- A call that has shown nothing yet. -/
def Call.fresh : Call → Bool
  | .registering .. | .loggingIn .. | .refreshing _ .get | .loggingOut _ | .loggedOut
  | .threw => true
  | _ => false

/-- The steps of a call. -/
inductive Moves (env : Outside) (r : Random) (w : World) : Call → World → Call → Prop
  | fresh {c c' : Call} (hfresh : c'.fresh = true) : Moves env r w c w c'
  | registered {email password name : String} {merchants : Table Merchant}
      (hvalid : r.valid = true)
      (hinsert : w.merchants.insert?
        ⟨r.uuid, email, hashPassword env.crypto password r.salt, name⟩ = some merchants) :
      Moves env r w (.registering email password name) { w with merchants }
        (.issuing r.uuid (.password email password))
  | authenticated {email password merchantId : String}
      (hauth : authenticate env w email password = some merchantId) :
      Moves env r w (.loggingIn email password) w
        (.issuing merchantId (.password email password))
  | got {token : String}
      (hstored : isStored env.crypto.sha256 (w.get (keyOf token)) token = true) :
      Moves env r w (.refreshing token .get) w (.refreshing token .del)
  | deleted {token : String} :
      Moves env r w (.refreshing token .del)
        { w with redis := Function.update w.redis (keyOf token) none }
        (.refreshing token .findOne)
  | found {token merchantId tokenId : String}
      (hparse : parseRefresh token = some (merchantId, tokenId)) :
      Moves env r w (.refreshing token .findOne) w (.issuing merchantId (.token token))
  | issued {merchantId : String} {grant : Grant} (hvalid : r.valid = true) :
      Moves env r w (.issuing merchantId grant)
        { w with
          redis := Function.update w.redis (refreshKey merchantId r.tokenId)
            (some (env.crypto.sha256 (newToken merchantId r.tokenId r.secret),
              w.now + refreshTtl)) }
        (.answered merchantId (newToken merchantId r.tokenId r.secret) grant)
  | loggedOut {token : String} :
      Moves env r w (.loggingOut token)
        { w with redis := Function.update w.redis (keyOf token) none } .loggedOut

theorem fresh_start (h : i.start env = some c) : c.fresh = true := by
  cases i with
  | register input =>
    simp only [Input.start] at h
    split at h <;> cases h <;> rfl
  | login input =>
    simp only [Input.start] at h
    split at h <;> cases h <;> rfl
  | refresh refreshToken =>
    simp only [Input.start] at h
    split at h
    · split at h <;> cases h <;> rfl
    · cases h
      rfl
  | logout refreshToken =>
    simp only [Input.start] at h
    split at h
    · split at h <;> cases h <;> rfl
    · cases h
      rfl
  | exec r => cases h
  | throw => cases h

theorem moves_exec (hvalid : r.valid = true) (h : c.exec env r w = some (w', c')) :
    Moves env r w c w' c' := by
  cases c with
  | registering email password name =>
    simp only [Call.exec] at h
    split at h
    · next hinsert =>
      cases h
      exact .registered hvalid hinsert
    · cases h
      exact .fresh rfl
  | loggingIn email password =>
    simp only [Call.exec] at h
    split at h
    · next hauth =>
      cases h
      exact .authenticated hauth
    · cases h
      exact .fresh rfl
  | refreshing token pc =>
    cases pc with
    | get =>
      simp only [Call.exec] at h
      split at h
      · next hstored =>
        cases h
        exact .got hstored
      · cases h
        exact .fresh rfl
    | del =>
      cases h
      exact .deleted
    | findOne =>
      simp only [Call.exec] at h
      split at h
      · next hparse =>
        split at h
        · cases h
          exact .found hparse
        · cases h
          exact .fresh rfl
      · cases h
        exact .fresh rfl
  | issuing merchantId grant =>
    cases h
    exact .issued hvalid
  | loggingOut token =>
    cases h
    exact .loggedOut
  | _ => cases h

/-- **What a step of a call can do**: a statement, or a beginning or an end without a trace. -/
theorem moves_of_exec (h : (program env).exec others i w c = some (w', c')) :
    (∃ r, i = .exec r ∧ Moves env r w c w' c') ∨ w' = w ∧ c'.fresh = true := by
  cases i with
  | exec r =>
    simp only [program] at h
    split at h
    · next hvalid => exact .inl ⟨r, rfl, moves_exec hvalid h⟩
    · cases h
  | throw =>
    simp only [program] at h
    split at h
    · cases h
    · cases h
      exact .inr ⟨rfl, rfl⟩
  | _ =>
    simp only [program] at h
    split at h
    · obtain ⟨c₁, hstart, heq⟩ := Option.map_eq_some_iff.mp h
      cases heq
      exact .inr ⟨rfl, fresh_start hstart⟩
    · cases h

end Moves

/-! ## Accounts -/

section Accounts

variable (env : Outside) {n : Nat}

/-- The `INSERT` of a registration goes through. -/
def Inserts (merchantId email password : String) (s : Program.Sys World Call n)
    (a : Program.Label Input Event n) : Prop :=
  ∃ k r name, a = .call k (.exec r) ∧ r.valid = true ∧
    s.calls k = .registering email password name ∧ r.uuid = merchantId ∧
    ∀ m ∈ s.db.merchants, m.id ≠ merchantId ∧ m.email ≠ email

/-- The run has registered the merchant. -/
def Registered (steps : List (Program.Label Input Event n)) (merchantId email password : String) :
    Prop :=
  ((program env).interleave n).Did (Inserts merchantId email password) (start n) steps

/-- The row has a hash of the password. -/
def HasPassword (m : Merchant) (password : String) : Prop :=
  ∃ salt, isHex salt = true ∧ m.passwordHash = hashPassword env.crypto password salt

/-- The rows are those of the registrations. -/
structure Recorded (steps : List (Program.Label Input Event n)) (w : World) : Prop where
  sound : ∀ m ∈ w.merchants, ∃ password, Registered env steps m.id m.email password ∧
    HasPassword env m password
  complete : ∀ merchantId email password, Registered env steps merchantId email password →
    ∃ m ∈ w.merchants, m.id = merchantId ∧ m.email = email ∧ HasPassword env m password

variable {env} {steps : List (Program.Label Input Event n)} {s s' : Program.Sys World Call n}
  {a : Program.Label Input Event n} {r : Random} {w w' : World} {c c' : Call}
  {merchantId email password : String}

/-- A step inserts a row, or leaves the table alone. -/
theorem merchants_moves (h : Moves env r w c w' c') : w'.merchants = w.merchants ∨
    ∃ email password name, c = .registering email password name ∧ r.valid = true ∧
      w.merchants.insert? ⟨r.uuid, email, hashPassword env.crypto password r.salt, name⟩
        = some w'.merchants := by
  cases h with
  | registered hvalid hinsert => exact .inr ⟨_, _, _, rfl, hvalid, hinsert⟩
  | _ => exact .inl rfl

theorem merchants_step (hstep : ((program env).interleave n).step s a = some s') :
    s'.db.merchants = s.db.merchants ∨
    ∃ k r email password name, a = .call k (.exec r) ∧ r.valid = true ∧
      s.calls k = .registering email password name ∧
      s.db.merchants.insert? ⟨r.uuid, email, hashPassword env.crypto password r.salt, name⟩
        = some s'.db.merchants := by
  cases a with
  | call k i =>
    obtain ⟨w, c, hexec, rfl⟩ := (program env).step_call.mp hstep
    rcases moves_of_exec hexec with ⟨r, rfl, hmoves⟩ | ⟨rfl, -⟩
    · rcases merchants_moves hmoves with hsame | ⟨email, password, name, hk, hvalid, hinsert⟩
      · exact .inl hsame
      · exact .inr ⟨k, r, email, password, name, rfl, hvalid, hk, hinsert⟩
    · exact .inl rfl
  | env e =>
    obtain ⟨w, henv, rfl⟩ := (program env).step_env.mp hstep
    cases e <;> cases henv <;> exact .inl rfl

/-- Rows stay. -/
theorem mem_merchants_step {m : Merchant}
    (hstep : ((program env).interleave n).step s a = some s') (hm : m ∈ s.db.merchants) :
    m ∈ s'.db.merchants := by
  rcases merchants_step hstep with hsame | ⟨k, r, email, password, name, -, -, -, hinsert⟩
  · exact hsame ▸ hm
  · exact (Table.mem_of_insert? hinsert m).mpr (.inl hm)

/-- A registration that goes through leaves its row. -/
theorem mem_of_inserts (h : Inserts merchantId email password s a)
    (hstep : ((program env).interleave n).step s a = some s') :
    ∃ m ∈ s'.db.merchants, m.id = merchantId ∧ m.email = email ∧ HasPassword env m password := by
  obtain ⟨k, r, name, rfl, hvalid, hk, rfl, hfree⟩ := h
  obtain ⟨w, c, hexec, rfl⟩ := (program env).step_call.mp hstep
  have hsalt : isHex r.salt = true := by
    simp only [Random.valid, Bool.and_eq_true] at hvalid
    exact hvalid.1.1.1.2
  obtain ⟨merchants, hinsert⟩ : ∃ merchants, s.db.merchants.insert?
      ⟨r.uuid, email, hashPassword env.crypto password r.salt, name⟩ = some merchants :=
    ⟨_, dif_pos fun m hm hclash => hclash.elim (hfree m hm).1 (hfree m hm).2⟩
  simp only [program, hvalid, if_true, hk, Call.exec, hinsert] at hexec
  cases hexec
  exact ⟨_, (Table.mem_of_insert? hinsert _).mpr (.inr rfl), rfl, rfl, r.salt, hsalt, rfl⟩

theorem recorded_step (hrun : ((program env).interleave n).run (start n) steps = some s)
    (h : Recorded env steps s.db) (hstep : ((program env).interleave n).step s a = some s') :
    Recorded env (steps ++ [a]) s'.db where
  sound m hm := by
    have hold : m ∈ s.db.merchants → ∃ password,
        Registered env (steps ++ [a]) m.id m.email password ∧ HasPassword env m password := by
      intro hm
      obtain ⟨password, hreg, hhas⟩ := h.sound m hm
      exact ⟨password, hreg.append _ [a], hhas⟩
    rcases merchants_step hstep with hsame | ⟨k, r, email, password, name, rfl, hvalid, hk, hinsert⟩
    · exact hold (hsame ▸ hm)
    · rcases (Table.mem_of_insert? hinsert m).mp hm with hm | rfl
      · exact hold hm
      · have hfree : ∀ m ∈ s.db.merchants, m.id ≠ r.uuid ∧ m.email ≠ email := fun m hm =>
          not_or.mp ((Table.insert?_eq_some.mp hinsert).1 m hm)
        have hsalt : isHex r.salt = true := by
          simp only [Random.valid, Bool.and_eq_true] at hvalid
          exact hvalid.1.1.1.2
        exact ⟨password, Lts.did_last _ hrun ⟨k, r, name, rfl, hvalid, hk, rfl, hfree⟩, r.salt,
          hsalt, rfl⟩
  complete merchantId email password hreg := by
    rcases hreg.of_concat hrun with hreg | hinserts
    · obtain ⟨m, hm, hrest⟩ := h.complete merchantId email password hreg
      exact ⟨m, mem_merchants_step hstep hm, hrest⟩
    · exact mem_of_inserts hinserts hstep

/-- **The table of every run.** -/
theorem recorded_of_run (hrun : ((program env).interleave n).run (start n) steps = some s) :
    Recorded env steps s.db := by
  refine Lts.inv_of_history _ (I := fun done u => Recorded env done u.db) ?_
    (fun done u a u' hdone h hs => recorded_step hdone h hs) hrun
  refine ⟨fun m hm => (nomatch hm), ?_⟩
  rintro _ _ _ ⟨before, a, after, u, heq, -⟩
  exact absurd heq (by simp)

/-- A login for a row is by the password of its registration. -/
theorem Recorded.registered (h : Recorded env steps w) (hexact : Exact env.crypto)
    (hauth : authenticate env w email password = some merchantId) :
    Registered env steps merchantId email password := by
  unfold authenticate at hauth
  split at hauth
  · next m hfind =>
    obtain ⟨hm, hemail⟩ := Table.find?_some hfind
    split at hauth
    · next hverify =>
      obtain rfl := Option.some.inj hauth
      obtain ⟨password', hreg, salt, hsalt, hhash⟩ := h.sound m hm
      rw [hhash] at hverify
      rw [(hexact _ _ _ hsalt).mp hverify, ← beq_iff_eq.mp hemail]
      exact hreg
    · cases hauth
  · cases hauth

/-- **An email belongs to the first who has registered it**: in every state of every run, a login
is for a merchant exactly where the run has registered the merchant with this email and this
password. -/
theorem authenticate_iff (hexact : Exact env.crypto)
    (hrun : ((program env).interleave n).run (start n) steps = some s) :
    authenticate env s.db email password = some merchantId ↔
      Registered env steps merchantId email password := by
  have h := recorded_of_run hrun
  refine ⟨h.registered hexact, fun hreg => ?_⟩
  obtain ⟨m, hm, rfl, rfl, salt, hsalt, hhash⟩ := h.complete _ _ _ hreg
  have hfind : (s.db.merchants.find? fun x => x.email == m.email) = some m := by
    obtain ⟨x, hx⟩ : ∃ x, (s.db.merchants.find? fun x => x.email == m.email) = some x := by
      rw [← Option.isSome_iff_exists, Table.find?, List.find?_isSome]
      exact ⟨m, hm, beq_self_eq_true _⟩
    obtain ⟨hmem, hemail⟩ := Table.find?_some hx
    rw [hx, Table.eq_of_conflict hmem hm (.inr (beq_iff_eq.mp hemail))]
  have hverify : verifyPassword env.crypto password m.passwordHash = true := by
    rw [hhash]
    exact (hexact _ _ _ hsalt).mpr rfl
  simp only [authenticate, hfind, hverify, if_true]

end Accounts

/-! ## Sessions -/

/-- An id that a token can carry. -/
def plainId (merchantId : String) : Bool :=
  !merchantId.isEmpty && !merchantId.toList.contains '.'

theorem parseRefresh_newToken {merchantId tokenId secret : String}
    (hid : plainId merchantId = true) (htoken : tokenId.isEmpty = false)
    (hhex : isHex tokenId = true) :
    parseRefresh (newToken merchantId tokenId secret) = some (merchantId, tokenId) := by
  simp only [plainId, Bool.and_eq_true, Bool.not_eq_true', List.contains_eq_mem,
    decide_eq_false_iff_not] at hid
  have hpoint : '.' ∉ tokenId.toList := fun hmem =>
    absurd (List.all_eq_true.mp hhex '.' hmem) (by decide)
  have hlist : (newToken merchantId tokenId secret).toList
      = merchantId.toList ++ '.' :: (tokenId.toList ++ '.' :: secret.toList) := by
    simp [newToken]
  have hne : ∀ {s : String}, s.isEmpty = false → s.toList ≠ [] := by
    intro s hs hnil
    rw [String.toList_eq_nil_iff.mp hnil] at hs
    cases hs
  rw [parseRefresh, hlist, splitOn_append hid.2, splitOn_append hpoint]
  simp only [hne hid.1, hne htoken, or_self, if_false, String.ofList_toList]

section Sessions

variable (env : Outside) {n : Nat}

/-- The `SET` of `issueTokens`, at a time. -/
def HandsOut (merchantId token : String) (grant : Grant) (time : Nat)
    (s : Program.Sys World Call n) (a : Program.Label Input Event n) : Prop :=
  ∃ k r, a = .call k (.exec r) ∧ r.valid = true ∧ s.calls k = .issuing merchantId grant ∧
    token = newToken merchantId r.tokenId r.secret ∧ s.db.now = time

def HandedOut (steps : List (Program.Label Input Event n)) (merchantId token : String)
    (grant : Grant) (time : Nat) : Prop :=
  ((program env).interleave n).Did (HandsOut merchantId token grant time) (start n) steps

/-- How a token was handed out: for the password of a registration, or for a token that was
redeemed within its seven days and was handed out so itself. -/
inductive Chain (steps : List (Program.Label Input Event n)) (merchantId : String) :
    String → Grant → Nat → Prop
  | password {email password token : String} {time : Nat}
      (hreg : Registered env steps merchantId email password)
      (hout : HandedOut env steps merchantId token (.password email password) time) :
      Chain steps merchantId token (.password email password) time
  | token {old token : String} {grant : Grant} {before read time : Nat}
      (hold : Chain steps merchantId old grant before) (hbefore : before ≤ read)
      (hread : read < before + refreshTtl) (htime : read ≤ time)
      (hout : HandedOut env steps merchantId token (.token old) time) :
      Chain steps merchantId token (.token old) time

variable {env} {steps : List (Program.Label Input Event n)} {s s' : Program.Sys World Call n}
  {a : Program.Label Input Event n} {r : Random} {w w' : World} {c c' : Call}
  {merchantId token email password : String} {grant : Grant} {time : Nat}

theorem Chain.append (h : Chain env steps merchantId token grant time)
    (more : List (Program.Label Input Event n)) :
    Chain env (steps ++ more) merchantId token grant time := by
  induction h with
  | password hreg hout => exact .password (hreg.append _ more) (hout.append _ more)
  | token _ hbefore hread htime hout ih =>
    exact .token ih hbefore hread htime (hout.append _ more)

theorem plain_of_registered (h : Registered env steps merchantId email password) :
    plainId merchantId = true := by
  obtain ⟨_, _, _, _, -, -, k, r, name, -, hvalid, -, rfl, -⟩ := h
  simp only [Random.valid, Bool.and_eq_true] at hvalid
  simp only [plainId, Bool.and_eq_true]
  exact hvalid.1.1.1.1

theorem Chain.plain (h : Chain env steps merchantId token grant time) :
    plainId merchantId = true := by
  induction h with
  | password hreg _ => exact plain_of_registered hreg
  | token _ _ _ _ _ ih => exact ih

/-- The merchant of a token stands in it. -/
theorem Chain.parse (h : Chain env steps merchantId token grant time) :
    ∃ tokenId, parseRefresh token = some (merchantId, tokenId) := by
  have hplain := h.plain
  have hout : ∃ grant time, HandedOut env steps merchantId token grant time := by
    cases h with
    | password _ hout => exact ⟨_, _, hout⟩
    | token _ _ _ _ hout => exact ⟨_, _, hout⟩
  obtain ⟨_, _, _, _, _, _, -, -, k, r, -, hvalid, -, rfl, -⟩ := hout
  simp only [Random.valid, Bool.and_eq_true, Bool.not_eq_true'] at hvalid
  exact ⟨r.tokenId, parseRefresh_newToken hplain hvalid.1.1.2 hvalid.1.2⟩

/-- The token is good for its holder at some time up to now. -/
def Live (env : Outside) (steps : List (Program.Label Input Event n)) (merchantId token : String)
    (now : Nat) : Prop :=
  ∃ grant time read, Chain env steps merchantId token grant time ∧ time ≤ read ∧
    read < time + refreshTtl ∧ read ≤ now

/-- What a call has shown for the token that it is to hand out. -/
def Shown (env : Outside) (steps : List (Program.Label Input Event n)) (merchantId : String)
    (now : Nat) : Grant → Prop
  | .password email password => Registered env steps merchantId email password
  | .token old => Live env steps merchantId old now

/-- A value in Redis is the hash of a token that was handed out, and is kept for seven days. -/
def Backed (env : Outside) (steps : List (Program.Label Input Event n)) (w : World) : Prop :=
  ∀ key value expiresAt, w.redis key = some (value, expiresAt) →
    ∃ merchantId token grant time, Chain env steps merchantId token grant time ∧
      value = env.crypto.sha256 token ∧ expiresAt = time + refreshTtl ∧ time ≤ w.now

def CallBacked (env : Outside) (steps : List (Program.Label Input Event n)) (now : Nat) :
    Call → Prop
  | .issuing merchantId grant => Shown env steps merchantId now grant
  | .refreshing token pc => pc = .get ∨ ∃ merchantId, Live env steps merchantId token now
  | .answered merchantId token grant => ∃ time, Chain env steps merchantId token grant time
  | _ => True

theorem Live.mono (h : Live env steps merchantId token time)
    (more : List (Program.Label Input Event n)) {now : Nat} (hle : time ≤ now) :
    Live env (steps ++ more) merchantId token now := by
  obtain ⟨grant, t, read, hchain, hlo, hhi, hread⟩ := h
  exact ⟨grant, t, read, hchain.append more, hlo, hhi, hread.trans hle⟩

theorem CallBacked.mono (h : CallBacked env steps time c)
    (more : List (Program.Label Input Event n)) {now : Nat} (hle : time ≤ now) :
    CallBacked env (steps ++ more) now c := by
  cases c with
  | issuing merchantId grant =>
    cases grant with
    | password email password => exact h.append _ more
    | token old => exact Live.mono h more hle
  | refreshing token pc => exact h.imp_right fun ⟨m, hlive⟩ => ⟨m, hlive.mono more hle⟩
  | answered merchantId token grant =>
    obtain ⟨t, hchain⟩ := h
    exact ⟨t, hchain.append more⟩
  | _ => trivial

theorem callBacked_fresh {now : Nat} (h : c.fresh = true) : CallBacked env steps now c := by
  cases c with
  | refreshing token pc =>
    cases pc with
    | get => exact .inl rfl
    | _ => cases h
  | issuing => cases h
  | answered => cases h
  | _ => trivial

/-- A key that is still there is the hash of one token only. -/
theorem live_of_get (hinjective : Function.Injective env.crypto.sha256) (h : Backed env steps w)
    (hstored : isStored env.crypto.sha256 (w.get (keyOf token)) token = true) :
    ∃ merchantId, Live env steps merchantId token w.now := by
  obtain ⟨⟨value, expiresAt⟩, hkey, hif⟩ := Option.bind_eq_some_iff.mp (isStored_eq_true hstored)
  dsimp only at hif
  split at hif
  · next hnow =>
    obtain ⟨merchantId, token', grant, time, hchain, hvalue, rfl, htime⟩ := h _ _ _ hkey
    obtain rfl := hinjective (hvalue.symm.trans (Option.some.inj hif))
    exact ⟨merchantId, grant, time, w.now, hchain, htime, hnow, Nat.le_refl _⟩
  · cases hif

theorem Backed.drop (h : Backed env steps w) (key : String) :
    Backed env steps { w with redis := Function.update w.redis key none } := by
  intro key' value expiresAt hkey
  dsimp only at hkey
  by_cases heq : key' = key
  · rw [heq, Function.update_self] at hkey
    cases hkey
  · rw [Function.update_of_ne heq] at hkey
    exact h _ _ _ hkey

theorem Backed.mono (h : Backed env steps w) (more : List (Program.Label Input Event n)) :
    Backed env (steps ++ more) w := by
  intro key value expiresAt hkey
  obtain ⟨merchantId, token, grant, time, hchain, hrest⟩ := h _ _ _ hkey
  exact ⟨merchantId, token, grant, time, hchain.append more, hrest⟩

/-- The `SET` extends a chain. -/
theorem chain_of_shown (hrun : ((program env).interleave n).run (start n) steps = some s)
    {k : Fin n} (hvalid : r.valid = true) (hk : s.calls k = .issuing merchantId grant)
    (h : Shown env steps merchantId s.db.now grant) :
    Chain env (steps ++ [.call k (.exec r)]) merchantId (newToken merchantId r.tokenId r.secret)
      grant s.db.now := by
  have hout : HandedOut env (steps ++ [.call k (.exec r)]) merchantId
      (newToken merchantId r.tokenId r.secret) grant s.db.now :=
    Lts.did_last _ hrun ⟨k, r, rfl, hvalid, hk, rfl, rfl⟩
  cases grant with
  | password email password => exact .password (h.append _ _) hout
  | token old =>
    obtain ⟨grant, time, read, hchain, hlo, hhi, hread⟩ := h
    exact .token (hchain.append _) hlo hhi hread hout

/-- **One step of a call.** -/
theorem backed_moves (hexact : Exact env.crypto)
    (hinjective : Function.Injective env.crypto.sha256)
    (hrun : ((program env).interleave n).run (start n) steps = some s) {k : Fin n}
    (hw : Backed env steps s.db) (hc : CallBacked env steps s.db.now (s.calls k))
    (h : Moves env r s.db (s.calls k) w' c') :
    Backed env (steps ++ [.call k (.exec r)]) w' ∧
      CallBacked env (steps ++ [.call k (.exec r)]) w'.now c' := by
  generalize hk : s.calls k = c at h hc
  cases h with
  | fresh hfresh => exact ⟨hw.mono _, callBacked_fresh hfresh⟩
  | @registered email password name merchants hvalid hinsert =>
    refine ⟨fun key value expiresAt hkey => hw.mono _ _ _ _ hkey,
      Lts.did_last _ hrun ⟨k, r, name, rfl, hvalid, hk, rfl, fun m hm => ?_⟩⟩
    exact not_or.mp ((Table.insert?_eq_some.mp hinsert).1 m hm)
  | authenticated hauth =>
    exact ⟨hw.mono _, ((recorded_of_run hrun).registered hexact hauth).append _ _⟩
  | got hstored =>
    obtain ⟨merchantId, hlive⟩ := live_of_get hinjective hw hstored
    exact ⟨hw.mono _, .inr ⟨merchantId, hlive.mono _ (Nat.le_refl _)⟩⟩
  | deleted =>
    exact ⟨(hw.drop _).mono _, .inr (by
      obtain ⟨merchantId, hlive⟩ := hc.resolve_left nofun
      exact ⟨merchantId, hlive.mono _ (Nat.le_refl _)⟩)⟩
  | found hparse =>
    obtain ⟨merchantId, hlive⟩ := hc.resolve_left nofun
    -- the id that the token carries is that of the chain
    obtain ⟨tokenId, hchain⟩ : ∃ tokenId, parseRefresh _ = some (merchantId, tokenId) :=
      hlive.choose_spec.choose_spec.choose_spec.1.parse
    obtain ⟨rfl, -⟩ := Prod.mk.inj (Option.some.inj (hparse.symm.trans hchain))
    exact ⟨hw.mono _, hlive.mono _ (Nat.le_refl _)⟩
  | @issued merchantId grant hvalid =>
    have hchain := chain_of_shown hrun hvalid hk hc
    refine ⟨fun key value expiresAt hkey => ?_, s.db.now, hchain⟩
    dsimp only at hkey
    by_cases heq : key = refreshKey merchantId r.tokenId
    · rw [heq, Function.update_self] at hkey
      cases hkey
      exact ⟨_, _, _, _, hchain, rfl, rfl, Nat.le_refl _⟩
    · rw [Function.update_of_ne heq] at hkey
      exact hw.mono _ _ _ _ hkey
  | loggedOut => exact ⟨(hw.drop _).mono _, trivial⟩

theorem now_moves (h : Moves env r w c w' c') : w'.now = w.now := by
  cases h <;> rfl

/-- **Redis and the calls in every run.** -/
theorem backed_of_run (hexact : Exact env.crypto)
    (hinjective : Function.Injective env.crypto.sha256)
    (hrun : ((program env).interleave n).run (start n) steps = some s) :
    Backed env steps s.db ∧ ∀ k, CallBacked env steps s.db.now (s.calls k) := by
  refine Lts.inv_of_history _ (I := fun done u => Backed env done u.db ∧
    ∀ k, CallBacked env done u.db.now (u.calls k)) ?_ ?_ hrun
  · exact ⟨fun key value expiresAt hkey => (nomatch hkey), fun _ => trivial⟩
  intro done u a u' hdone ⟨hw, hc⟩ hstep
  cases a with
  | call k i =>
    obtain ⟨w, c, hexec, rfl⟩ := (program env).step_call.mp hstep
    rcases moves_of_exec hexec with ⟨r, rfl, hmoves⟩ | ⟨rfl, hfresh⟩
    · obtain ⟨hw', hc'⟩ := backed_moves hexact hinjective hdone hw (hc k) hmoves
      exact ⟨hw', forall_update hc' fun j _ => (hc j).mono _ (now_moves hmoves).ge⟩
    · exact ⟨hw.mono _, forall_update (callBacked_fresh hfresh) fun j _ =>
        (hc j).mono _ (Nat.le_refl _)⟩
  | env e =>
    obtain ⟨w, henv, rfl⟩ := (program env).step_env.mp hstep
    cases e with
    | tick ms =>
      cases henv
      refine ⟨fun key value expiresAt hkey => ?_, fun k => (hc k).mono _ (Nat.le_add_right _ _)⟩
      obtain ⟨merchantId, token, grant, time, hchain, hvalue, hexp, htime⟩ := hw.mono _ _ _ _ hkey
      exact ⟨merchantId, token, grant, time, hchain, hvalue, hexp,
        htime.trans (Nat.le_add_right _ _)⟩
    | evict key =>
      cases henv
      exact ⟨(hw.drop _).mono _, fun k => (hc k).mono _ (Nat.le_refl _)⟩

/-- **A session goes back to a password**: in every run, a token that a call has answered with
was handed out to a merchant for the password of his registration, or for a token of his own that
was redeemed within seven days of being handed out, and for which the same holds. -/
theorem chain_of_answered (hexact : Exact env.crypto)
    (hinjective : Function.Injective env.crypto.sha256)
    (hrun : ((program env).interleave n).run (start n) steps = some s) {k : Fin n}
    (hk : s.calls k = .answered merchantId token grant) :
    ∃ time, Chain env steps merchantId token grant time := by
  have h := (backed_of_run hexact hinjective hrun).2 k
  rwa [hk] at h

end Sessions

/-! ## A run -/

section Run

open TeamMembers (unaryCrypto exact_unaryCrypto plainCrypto_injective)

/-- Functions without collisions. -/
def unaryOutside : Outside := ⟨unaryCrypto, fun s => s.toList.contains '@'⟩

/-- The next statement of the call. -/
def next (tokenId : String) : Program.Label Input Event 1 :=
  .call 0 (.exec ⟨"m", "aa", tokenId, "00"⟩)

/-- An owner registers, and gets the token `m.01.00`. -/
def registers : List (Program.Label Input Event 1) :=
  [.call 0 (.register ⟨some "owner@company.com", some "a long password", some "Owner"⟩),
    next "01", next "01"]

/-- A day later, he refreshes. -/
def refreshes : List (Program.Label Input Event 1) :=
  [.env (.tick 86400000), .call 0 (.refresh (some "m.01.00")), next "02", next "02", next "02",
    next "02"]

/-- He can log in from then on. -/
theorem authenticate_iff_owner : Exact unaryOutside.crypto ∧ ∃ s : Program.Sys World Call 1,
    ((program unaryOutside).interleave 1).run (start 1) registers = some s ∧
    authenticate unaryOutside s.db "owner@company.com" "a long password" = some "m" := by
  obtain ⟨s, hrun, -⟩ := ((program unaryOutside).interleave 1).exists_of_leadsTo
    (fun _ => True) (start 1) registers (by decide +kernel)
  obtain ⟨u, hbefore, hrows, hk⟩ := ((program unaryOutside).interleave 1).exists_of_leadsTo
    (fun u => u.db.merchants.rows = [] ∧
      u.calls 0 = .registering "owner@company.com" "a long password" "Owner") (start 1)
    (registers.take 1) (by decide +kernel)
  have hinserts : Inserts "m" "owner@company.com" "a long password" u (next "01") := by
    refine ⟨0, _, "Owner", rfl, by decide +kernel, hk, rfl, fun m hm => ?_⟩
    rw [← Table.mem_rows, hrows] at hm
    cases hm
  have hreg : Registered unaryOutside registers "m" "owner@company.com" "a long password" :=
    ⟨registers.take 1, next "01", [next "01"], u, rfl, hbefore, hinserts⟩
  have hexact : Exact unaryOutside.crypto := exact_unaryCrypto
  exact ⟨hexact, s, hrun, (authenticate_iff hexact hrun).mpr hreg⟩

/-- A refresh goes back to his password. -/
theorem chain_of_answered_owner : Exact unaryOutside.crypto ∧
    Function.Injective unaryOutside.crypto.sha256 ∧ ∃ s : Program.Sys World Call 1,
    ((program unaryOutside).interleave 1).run (start 1) (registers ++ refreshes) = some s ∧
    s.calls 0 = .answered "m" "m.02.00" (.token "m.01.00") ∧ ∃ time,
      Chain unaryOutside (registers ++ refreshes) "m" "m.02.00" (.token "m.01.00") time := by
  obtain ⟨s, hrun, hk⟩ := ((program unaryOutside).interleave 1).exists_of_leadsTo
    (fun s => s.calls 0 = .answered "m" "m.02.00" (.token "m.01.00")) (start 1)
    (registers ++ refreshes) (by decide +kernel)
  exact ⟨exact_unaryCrypto, plainCrypto_injective, s, hrun, hk,
    chain_of_answered exact_unaryCrypto plainCrypto_injective hrun hk⟩

end Run

end Stargate.Auth.Accounts
