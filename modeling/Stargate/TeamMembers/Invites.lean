import Stargate.Base.Sessions
import Stargate.Base.Table

/-!
# Team members

An owner invites a member, who sets a password with the token of the invite. Every statement
of `TeamMembersService` is a step of its own; between the `SELECT` of `acceptInvite` and its
`UPDATE`, which is by id alone, a password is hashed.

- `program`: any number of calls, statement by statement;
- `takenOnce`: no call of `acceptInvite` reads a token that another one has found;
- `settled`: no member is suspended between the `SELECT` and the `UPDATE` of an
  `acceptInvite`;
- `redeemed_once_and_suspended`: then an invite is redeemed once, and a suspension is final;
- `redeemed_twice_and_undone`: runs that do not meet these conditions.
-/

namespace Stargate.TeamMembers

open Base

/-! ## Rows -/

inductive Role where
  | owner
  | admin
  | developer
  | viewer
  deriving DecidableEq

inductive Status where
  | pending
  | active
  | suspended
  deriving DecidableEq

/-- A row of `team_members`. -/
structure Member where
  id : Nat
  merchantId : Nat
  email : String
  name : String
  passwordHash : Option String
  role : Role
  status : Status
  inviteTokenHash : Option String
  inviteExpiresAt : Option Nat
  lastLoginAt : Option Nat
  createdAt : Nat
  updatedAt : Nat
  deriving DecidableEq

/-- `PRIMARY KEY (id)` and `UNIQUE (merchant_id, email)`. -/
instance keyedMember : Keyed Member where
  Key := Nat × Nat × String
  key m := (m.id, m.merchantId, m.email)
  Clash a b := a.1 = b.1 ∨ a.2 = b.2
  clash_symm h := h.imp Eq.symm Eq.symm
  decClash _ _ := inferInstanceAs (Decidable (_ ∨ _))

/-- What Node's `crypto` computes, in hexadecimal digits. -/
structure Crypto where
  sha256 : String → String
  /-- `scrypt(password, salt, 64, { N, r, p })`. -/
  scrypt : String → String → String → String → String → String

/-- `hashPassword(password)`, with its random salt. -/
def hashPassword (crypto : Crypto) (password salt : String) : String :=
  "scrypt$32768$8$1$" ++ salt ++ "$" ++ crypto.scrypt password salt "32768" "8" "1"

/-- `verifyPassword(password, stored)`. A text without the six parts makes it throw. -/
def verifyPassword (crypto : Crypto) (password stored : String) : Bool :=
  match stored.toList.splitOn '$' with
  | _ :: n :: r :: p :: salt :: digest :: _ =>
    crypto.scrypt password (.ofList salt) (.ofList n) (.ofList r) (.ofList p) == .ofList digest
  | _ => false

/-- Seven days, in milliseconds. -/
def inviteTtl : Nat := 7 * 24 * 60 * 60 * 1000

/-- The row that `invite` inserts. -/
def newMember (id now merchantId : Nat) (email name : String) (role : Role)
    (tokenHash : String) : Member where
  id
  merchantId
  email
  name
  passwordHash := none
  role
  status := .pending
  inviteTokenHash := some tokenHash
  inviteExpiresAt := some (now + inviteTtl)
  lastLoginAt := none
  createdAt := now
  updatedAt := now

/-- The `UPDATE` of `acceptInvite`. -/
def Member.accept (passwordHash : String) (now : Nat) (m : Member) : Member :=
  { m with
    passwordHash := some passwordHash
    status := .active
    inviteTokenHash := none
    inviteExpiresAt := none
    updatedAt := now }

/-- The `UPDATE` of `login`. -/
def Member.touch (now : Nat) (m : Member) : Member :=
  { m with lastLoginAt := some now, updatedAt := now }

/-- The `UPDATE` of `updateRole`. -/
def Member.setRole (role : Role) (now : Nat) (m : Member) : Member :=
  { m with role, updatedAt := now }

/-- The `UPDATE` of `suspend`. -/
def Member.suspend (now : Nat) (m : Member) : Member :=
  { m with status := .suspended, updatedAt := now }

/-! ## Calls -/

/-- What a call returns. -/
inductive Answer where
  | invited (id : Nat) (email name : String) (role : Role) (status : Status) (createdAt : Nat)
      (inviteToken : String)
  | accepted (message : String)
  | roleUpdated (id : Nat) (role : Role)
  | suspended (id : Nat) (status : Status)
  | removed (id : Nat)
  deriving DecidableEq

/-- Where a call stands. -/
inductive Call where
  | idle
  | inviting (merchantId : Nat) (email name : String) (role : Role) (checked : Bool)
  /-- `memberId`: the member that the `SELECT` has found. -/
  | accepting (token password : String) (memberId : Option Nat)
  /-- `before`: who had been suspended when the call started. -/
  | loggingIn (email password : String) (before : List Nat) (member : Option Member)
  | updatingRole (merchantId memberId : Nat) (role : Role) (found : Bool)
  | suspending (merchantId memberId : Nat)
  | removing (merchantId memberId : Nat)
  | returned (answer : Answer)
  | loggedIn (before : List Nat) (id : Nat) (email name : String) (role : Role)
      (merchantId : Nat)
  | threw (status : Nat) (message : String)
  | failed
  deriving DecidableEq

/-- Nothing runs. -/
def Call.resting : Call → Bool
  | .idle | .returned _ | .loggedIn .. | .threw .. | .failed => true
  | _ => false

/-- The table and the clock; the tokens that were sent out, those that `acceptInvite` was
successful with, and the members that `suspend` has suspended. -/
structure World where
  members : Table Member
  now : Nat
  nextId : Nat
  tokens : List String
  redeemed : List String
  suspended : List Nat

inductive Input where
  | invite (merchantId : Nat) (inviterRole : Role) (email name : String) (role : Role)
  | acceptInvite (token password : String)
  | login (email password : String)
  | updateRole (merchantId memberId : Nat) (requesterRole role : Role)
  | suspend (merchantId memberId : Nat) (requesterRole : Role)
  | remove (merchantId memberId : Nat) (requesterRole : Role)
  /-- The row that comes first where several match, and random bytes. -/
  | exec (first : Nat) (random : String)
  /-- A statement fails, or the process dies. -/
  | throw
  deriving DecidableEq

/-- A statement runs. -/
def Input.isExec : Input → Bool
  | .exec _ _ => true
  | _ => false

inductive Event where
  | tick (ms : Nat)
  /-- `ON DELETE CASCADE`. -/
  | removeMerchant (merchantId : Nat)

/-- `rows[0]`, of rows in no particular order. -/
def firstOf (rows : List Member) (first : Nat) : Option Member := rows[first % rows.length]?

/-- `role === Role.DEVELOPER || role === Role.VIEWER`. -/
def Role.restricted (role : Role) : Bool := role == .developer || role == .viewer

def Input.start (i : Input) (w : World) : Option Call :=
  match i with
  | .invite merchantId inviterRole email name role =>
    if inviterRole.restricted then
      some (.threw 403 "Only owners and admins can invite team members")
    else some (.inviting merchantId email name role false)
  | .acceptInvite token password => some (.accepting token password none)
  | .login email password => some (.loggingIn email password w.suspended none)
  | .updateRole merchantId memberId requesterRole role =>
    if requesterRole.restricted then
      some (.threw 403 "Only owners and admins can change roles")
    else some (.updatingRole merchantId memberId role false)
  | .suspend merchantId memberId requesterRole =>
    if requesterRole.restricted then
      some (.threw 403 "Only owners and admins can suspend members")
    else some (.suspending merchantId memberId)
  | .remove merchantId memberId requesterRole =>
    if requesterRole ≠ .owner then
      some (.threw 403 "Only owners can remove team members")
    else some (.removing merchantId memberId)
  | .exec _ _ | .throw => none

/-- `rows[0]` of the `SELECT` of `acceptInvite`, and the checks. -/
def checkInvite (now : Nat) (token password : String) : Option Member → Call
  | none => .threw 404 "Invalid or expired invite token"
  | some member =>
    if member.status ≠ .pending then .threw 400 "Invite already accepted"
    else if member.inviteExpiresAt.getD 0 < now then .threw 400 "Invite token has expired"
    else .accepting token password (some member.id)

/-- `rows[0]` of the `SELECT` of `login`, and the checks. -/
def checkLogin (crypto : Crypto) (email password : String) (before : List Nat) :
    Option Member → Call
  | none => .threw 401 "Invalid email or password"
  | some member =>
    match member.passwordHash with
    | none => .failed
    | some passwordHash =>
      if verifyPassword crypto password passwordHash = false then
        .threw 401 "Invalid email or password"
      else if member.status = .suspended then .threw 403 "Account suspended"
      else if member.status = .pending then .threw 403 "Invite not yet accepted"
      else .loggingIn email password before (some member)

/-- The `INSERT` of `invite`. Ids and random tokens do not repeat, and the table takes no
owner. -/
def insertMember (crypto : Crypto) (w : World) (merchantId : Nat) (email name : String)
    (role : Role) (rawToken : String) : Option (World × Call) :=
  if w.tokens.contains rawToken then none
  else if role = .owner then some (w, .failed)
  else
    let row := newMember w.nextId w.now merchantId email name role (crypto.sha256 rawToken)
    match w.members.insert? row with
    | none => some (w, .failed)
    | some members =>
      some ({ w with members, nextId := w.nextId + 1, tokens := w.tokens ++ [rawToken] },
        .returned (.invited row.id email name role row.status row.createdAt rawToken))

/-- The next statement of a call. -/
def Call.exec (crypto : Crypto) (first : Nat) (random : String) (w : World) :
    Call → Option (World × Call)
  | .inviting merchantId email name role false =>
    if w.members.rows.any fun m => m.merchantId == merchantId && m.email == email then
      some (w, .threw 409 "A member with this email already exists")
    else some (w, .inviting merchantId email name role true)
  | .inviting merchantId email name role true =>
    insertMember crypto w merchantId email name role random
  | .accepting token password none =>
    let rows := w.members.rows.filter fun m => m.inviteTokenHash == some (crypto.sha256 token)
    some (w, checkInvite w.now token password (firstOf rows first))
  | .accepting token password (some memberId) =>
    some ({ w with
      members := w.members.modify (fun m => m.id == memberId)
        (Member.accept (hashPassword crypto password random) w.now) fun _ => rfl
      redeemed := w.redeemed ++ [token] },
      .returned (.accepted "Invite accepted. You can now log in."))
  | .loggingIn email password before none =>
    let rows := w.members.rows.filter fun m => m.email == email
    some (w, checkLogin crypto email password before (firstOf rows first))
  | .loggingIn _ _ before (some member) =>
    some ({ w with
      members := w.members.modify (fun m => m.id == member.id) (Member.touch w.now) fun _ => rfl },
      .loggedIn before member.id member.email member.name member.role member.merchantId)
  | .updatingRole merchantId memberId role false =>
    if w.members.rows.any fun m => m.id == memberId && m.merchantId == merchantId then
      some (w, .updatingRole merchantId memberId role true)
    else some (w, .threw 404 "Team member not found")
  | .updatingRole _ memberId role true =>
    if role = .owner then some (w, .failed)
    else
      some ({ w with
        members := w.members.modify (fun m => m.id == memberId) (Member.setRole role w.now)
          fun _ => rfl },
        .returned (.roleUpdated memberId role))
  | .suspending merchantId memberId =>
    if w.members.rows.any fun m => m.id == memberId && m.merchantId == merchantId then
      some ({ w with
        members := w.members.modify (fun m => m.id == memberId && m.merchantId == merchantId)
          (Member.suspend w.now) fun _ => rfl
        suspended := w.suspended ++ [memberId] },
        .returned (.suspended memberId .suspended))
    else some (w, .threw 404 "Team member not found")
  | .removing merchantId memberId =>
    if w.members.rows.any fun m => m.id == memberId && m.merchantId == merchantId then
      some ({ w with
        members := w.members.delete fun m => m.id == memberId && m.merchantId == merchantId },
        .returned (.removed memberId))
    else some (w, .threw 404 "Team member not found")
  | .idle | .returned _ | .loggedIn .. | .threw .. | .failed => none

/-- Any number of calls. -/
def program (crypto : Crypto) : Program World Call Input Event where
  exec _
    | .exec first random, w, c => c.exec crypto first random w
    | .throw, w, c => if c.resting then none else some (w, .failed)
    | i, w, c => if c.resting then (i.start w).map fun c => (w, c) else none
  env
    | .tick ms, w => some { w with now := w.now + ms }
    | .removeMerchant merchantId, w =>
      some { w with members := w.members.delete fun m => m.merchantId == merchantId }

/-- Nobody has been invited yet. -/
def idle (n : Nat) : Program.Sys World Call n where
  db := ⟨.empty, 0, 0, [], [], []⟩
  calls _ := .idle

/-! ## What a step can do -/

section Moves

variable {crypto : Crypto} {others : List Call} {i : Input} {w w' : World} {c c' : Call}
  {token : String} {id : Nat} {e : Event}

/-- A call that has found neither an invite nor somebody who may log in. -/
def Call.Plain (w : World) : Call → Prop
  | .accepting _ _ (some _) | .loggingIn _ _ _ (some _) | .loggedIn .. => False
  | .loggingIn _ _ before none => before = w.suspended
  | _ => True

/-- The steps of a call. -/
inductive Moves (crypto : Crypto) : World → Call → World → Call → Prop
  | plain {w : World} {c c' : Call} (hplain : c'.Plain w) : Moves crypto w c w c'
  | invited {w : World} {c : Call} {row : Member} {members : Table Member} {rawToken : String}
      {answer : Answer} (hfresh : rawToken ∉ w.tokens) (hid : row.id = w.nextId)
      (hhash : row.inviteTokenHash = some (crypto.sha256 rawToken))
      (hinsert : w.members.insert? row = some members) :
      Moves crypto w c
        { w with members, nextId := w.nextId + 1, tokens := w.tokens ++ [rawToken] }
        (.returned answer)
  | found {token password : String} {w : World} {m : Member} (hm : m ∈ w.members)
      (hhash : m.inviteTokenHash = some (crypto.sha256 token)) (hpending : m.status = .pending) :
      Moves crypto w (.accepting token password none) w (.accepting token password (some m.id))
  | accepted {token password passwordHash : String} {w : World} {memberId : Nat}
      {answer : Answer} :
      Moves crypto w (.accepting token password (some memberId)) { w with
        members := w.members.modify (fun m => m.id == memberId)
          (Member.accept passwordHash w.now) fun _ => rfl
        redeemed := w.redeemed ++ [token] } (.returned answer)
  | checked {email password : String} {before : List Nat} {w : World} {m : Member}
      (hm : m ∈ w.members) (hactive : m.status = .active) :
      Moves crypto w (.loggingIn email password before none) w
        (.loggingIn email password before (some m))
  | loggedIn {email password : String} {before : List Nat} {w : World} {m : Member} :
      Moves crypto w (.loggingIn email password before (some m)) { w with
        members := w.members.modify (fun x => x.id == m.id) (Member.touch w.now) fun _ => rfl }
        (.loggedIn before m.id m.email m.name m.role m.merchantId)
  | roleSet {w : World} {c : Call} {memberId : Nat} {role : Role} {answer : Answer} :
      Moves crypto w c { w with
        members := w.members.modify (fun m => m.id == memberId) (Member.setRole role w.now)
          fun _ => rfl } (.returned answer)
  | suspended {w : World} {merchantId memberId : Nat} {answer : Answer}
      (hm : ∃ m ∈ w.members, m.id = memberId ∧ m.merchantId = merchantId) :
      Moves crypto w (.suspending merchantId memberId) { w with
        members := w.members.modify (fun m => m.id == memberId && m.merchantId == merchantId)
          (Member.suspend w.now) fun _ => rfl
        suspended := w.suspended ++ [memberId] } (.returned answer)
  | removed {w : World} {c : Call} {p : Member → Bool} {answer : Answer} :
      Moves crypto w c { w with members := w.members.delete p } (.returned answer)

theorem plain_start (h : i.start w = some c) : c.Plain w := by
  cases i with
  | acceptInvite token password =>
    cases h
    trivial
  | login email password =>
    cases h
    rfl
  | exec first random => cases h
  | throw => cases h
  | _ =>
    simp only [Input.start] at h
    split at h
    · cases h
      trivial
    · cases h
      trivial

theorem firstOf_mem {rows : List Member} {first : Nat} {m : Member}
    (h : firstOf rows first = some m) : m ∈ rows := List.mem_of_getElem? h

theorem moves_insertMember {merchantId : Nat} {email name rawToken : String} {role : Role}
    (h : insertMember crypto w merchantId email name role rawToken = some (w', c')) :
    Moves crypto w c w' c' := by
  simp only [insertMember] at h
  split at h
  · cases h
  · next hfresh =>
    split at h
    · cases h
      exact .plain trivial
    · split at h
      · cases h
        exact .plain trivial
      · next members hinsert =>
        cases h
        exact .invited (fun hmem => hfresh (List.contains_iff_mem.mpr hmem)) rfl rfl hinsert

theorem moves_checkInvite {password : String} {rows : List Member} {first : Nat}
    (hrows : ∀ m ∈ rows, m ∈ w.members ∧ m.inviteTokenHash = some (crypto.sha256 token)) :
    Moves crypto w (.accepting token password none) w
      (checkInvite w.now token password (firstOf rows first)) := by
  cases hfirst : firstOf rows first with
  | none => exact .plain trivial
  | some m =>
    obtain ⟨hm, hhash⟩ := hrows m (firstOf_mem hfirst)
    simp only [checkInvite]
    split
    · exact .plain trivial
    · next hpending =>
      split
      · exact .plain trivial
      · exact .found hm hhash (not_not.mp hpending)

theorem moves_checkLogin {email password : String} {before : List Nat} {rows : List Member}
    {first : Nat} (hrows : ∀ m ∈ rows, m ∈ w.members) :
    Moves crypto w (.loggingIn email password before none) w
      (checkLogin crypto email password before (firstOf rows first)) := by
  cases hfirst : firstOf rows first with
  | none => exact .plain trivial
  | some m =>
    have hm := hrows m (firstOf_mem hfirst)
    simp only [checkLogin]
    split
    · exact .plain trivial
    · split
      · exact .plain trivial
      · split
        · exact .plain trivial
        · next hsuspended =>
          split
          · exact .plain trivial
          · next hpending =>
            refine .checked hm ?_
            cases hstatus : m.status with
            | pending => exact absurd hstatus hpending
            | active => rfl
            | suspended => exact absurd hstatus hsuspended

theorem moves_exec {first : Nat} {random : String}
    (h : c.exec crypto first random w = some (w', c')) : Moves crypto w c w' c' := by
  cases c with
  | inviting merchantId email name role checked =>
    cases checked with
    | false =>
      simp only [Call.exec] at h
      split at h
      · cases h
        exact .plain trivial
      · cases h
        exact .plain trivial
    | true => exact moves_insertMember h
  | accepting token password memberId =>
    cases memberId with
    | none =>
      cases h
      refine moves_checkInvite fun m hm => ?_
      obtain ⟨hm, hhash⟩ := List.mem_filter.mp hm
      exact ⟨hm, beq_iff_eq.mp hhash⟩
    | some memberId =>
      cases h
      exact .accepted
  | loggingIn email password before member =>
    cases member with
    | none =>
      cases h
      exact moves_checkLogin fun m hm => (List.mem_filter.mp hm).1
    | some member =>
      cases h
      exact .loggedIn
  | updatingRole merchantId memberId role found =>
    cases found with
    | false =>
      simp only [Call.exec] at h
      split at h
      · cases h
        exact .plain trivial
      · cases h
        exact .plain trivial
    | true =>
      simp only [Call.exec] at h
      split at h
      · cases h
        exact .plain trivial
      · cases h
        exact .roleSet
  | suspending merchantId memberId =>
    simp only [Call.exec] at h
    split at h
    · next hany =>
      obtain ⟨m, hm, heq⟩ := List.any_eq_true.mp hany
      obtain ⟨hid, hmerchant⟩ := Bool.and_eq_true_iff.mp heq
      cases h
      exact .suspended ⟨m, hm, beq_iff_eq.mp hid, beq_iff_eq.mp hmerchant⟩
    · cases h
      exact .plain trivial
  | removing merchantId memberId =>
    simp only [Call.exec] at h
    split at h
    · cases h
      exact .removed
    · cases h
      exact .plain trivial
  | _ => cases h

/-- **What a step can do.** -/
theorem moves_of_exec (h : (program crypto).exec others i w c = some (w', c')) :
    Moves crypto w c w' c' := by
  cases i with
  | exec first random => exact moves_exec h
  | throw =>
    simp only [program] at h
    split at h
    · cases h
    · cases h
      exact .plain trivial
  | _ =>
    simp only [program] at h
    split at h
    · obtain ⟨c₁, hstart, heq⟩ := Option.map_eq_some_iff.mp h
      cases heq
      exact .plain (plain_start hstart)
    · cases h

/-! ## Rows after a step -/

/-- The rows after the `UPDATE` of `acceptInvite`. -/
theorem mem_accept {memberId now : Nat} {passwordHash : String} {m : Member}
    (hm : m ∈ w.members.modify (fun m => m.id == memberId) (Member.accept passwordHash now)
      fun _ => rfl) :
    m ∈ w.members ∧ m.id ≠ memberId ∨
      (∃ m₀ ∈ w.members, m₀.id = m.id) ∧ m.id = memberId ∧ m.inviteTokenHash = none := by
  rcases Table.of_mem_modify hm with ⟨hm, hid⟩ | ⟨m₀, hm₀, hid, rfl⟩
  · exact .inl ⟨hm, beq_eq_false_iff_ne.mp hid⟩
  · exact .inr ⟨⟨m₀, hm₀, rfl⟩, beq_iff_eq.mp hid, rfl⟩

/-- The rows after the `UPDATE` of `suspend`. -/
theorem mem_suspend {merchantId memberId now : Nat} {m : Member}
    (hm : m ∈ w.members.modify (fun m => m.id == memberId && m.merchantId == merchantId)
      (Member.suspend now) fun _ => rfl) :
    m ∈ w.members ∧ ¬ (m.id = memberId ∧ m.merchantId = merchantId) ∨
      (∃ m₀ ∈ w.members, m₀.id = m.id) ∧ m.status = .suspended := by
  rcases Table.of_mem_modify hm with ⟨hm, hp⟩ | ⟨m₀, hm₀, -, rfl⟩
  · refine .inl ⟨hm, fun ⟨hid, hmerchant⟩ => ?_⟩
    rw [hid, hmerchant, beq_self_eq_true, beq_self_eq_true] at hp
    exact Bool.noConfusion hp
  · exact .inr ⟨⟨m₀, hm₀, rfl⟩, rfl⟩

/-- An update that leaves ids and tokens alone. -/
theorem hash_modify {p : Member → Bool} (f : Member → Member) {m : Member} {hash : String}
    (hkey : ∀ m, Keyed.key (f m) = Keyed.key m) (hm : m ∈ w.members.modify p f hkey)
    (hhash : m.inviteTokenHash = some hash)
    (hf : ∀ m, (f m).id = m.id ∧ (f m).inviteTokenHash = m.inviteTokenHash) :
    ∃ m₀ ∈ w.members, m₀.id = m.id ∧ m₀.inviteTokenHash = some hash := by
  rcases Table.of_mem_modify hm with ⟨hm, -⟩ | ⟨m₀, hm₀, -, rfl⟩
  · exact ⟨m, hm, rfl, hhash⟩
  · exact ⟨m₀, hm₀, (hf m₀).1.symm, (hf m₀).2.symm.trans hhash⟩

/-- A row with the hash of a token had it before, unless the token is new. -/
theorem hash_moves (hmoves : Moves crypto w c w' c') {m : Member} {hash : String}
    (hm : m ∈ w'.members) (hhash : m.inviteTokenHash = some hash) :
    (∃ m₀ ∈ w.members, m₀.id = m.id ∧ m₀.inviteTokenHash = some hash) ∨
    m.id = w.nextId ∧ ∃ rawToken ∉ w.tokens, w'.tokens = w.tokens ++ [rawToken] ∧
      hash = crypto.sha256 rawToken := by
  cases hmoves with
  | plain => exact .inl ⟨m, hm, rfl, hhash⟩
  | invited hfresh hid hnew hinsert =>
    rcases (Table.mem_of_insert? hinsert m).mp hm with hm | rfl
    · exact .inl ⟨m, hm, rfl, hhash⟩
    · rw [hnew] at hhash
      exact .inr ⟨hid, _, hfresh, rfl, (Option.some.inj hhash).symm⟩
  | found => exact .inl ⟨m, hm, rfl, hhash⟩
  | accepted =>
    rcases mem_accept hm with ⟨hm, -⟩ | ⟨-, -, hnone⟩
    · exact .inl ⟨m, hm, rfl, hhash⟩
    · exact absurd (hnone.symm.trans hhash) nofun
  | checked => exact .inl ⟨m, hm, rfl, hhash⟩
  | loggedIn =>
    exact .inl (hash_modify (Member.touch w.now) (fun _ => rfl) hm hhash fun _ => ⟨rfl, rfl⟩)
  | roleSet =>
    exact .inl (hash_modify (Member.setRole _ w.now) (fun _ => rfl) hm hhash fun _ => ⟨rfl, rfl⟩)
  | suspended =>
    exact .inl (hash_modify (Member.suspend w.now) (fun _ => rfl) hm hhash fun _ => ⟨rfl, rfl⟩)
  | removed => exact .inl ⟨m, (Table.mem_delete.mp hm).1, rfl, hhash⟩

theorem tokens_moves (hmoves : Moves crypto w c w' c') (h : token ∈ w.tokens) :
    token ∈ w'.tokens := by
  cases hmoves with
  | invited => exact List.mem_append_left _ h
  | _ => exact h

/-- An update that leaves ids and statuses alone. -/
theorem status_modify {p : Member → Bool} (f : Member → Member) {m : Member}
    (hkey : ∀ m, Keyed.key (f m) = Keyed.key m) (hm : m ∈ w.members.modify p f hkey)
    (hf : ∀ m, (f m).id = m.id ∧ (f m).status = m.status) :
    ∃ m₀ ∈ w.members, m₀.id = m.id ∧ m₀.status = m.status := by
  rcases Table.of_mem_modify hm with ⟨hm, -⟩ | ⟨m₀, hm₀, -, rfl⟩
  · exact ⟨m, hm, rfl, rfl⟩
  · exact ⟨m₀, hm₀, (hf m₀).1.symm, (hf m₀).2.symm⟩

/-! ## Invites that are redeemed -/

/-- The call has found the invite of the token. -/
def Past (token : String) : Call → Prop
  | .accepting token' _ (some _) => token' = token
  | _ => False

/-- The `SELECT` of `acceptInvite` is next. -/
def Call.reads (token : String) : Call → Bool
  | .accepting token' _ none => token' == token
  | _ => false

/-- While a call stands between the `SELECT` and the `UPDATE` of `acceptInvite`, no other call
reads its token. -/
def takenOnce (token : String) : Program.Guard World Call Input Event where
  call others i _ c :=
    i.isExec = true → c.reads token = true → ∀ o ∈ others, ¬ Past token o
  env _ _ _ := True

instance decidablePast (token : String) : DecidablePred (Past token)
  | .accepting token' _ (some _) => inferInstanceAs (Decidable (token' = token))
  | .accepting _ _ none | .idle | .inviting .. | .loggingIn .. | .updatingRole .. | .suspending ..
  | .removing .. | .returned _ | .loggedIn .. | .threw .. | .failed => isFalse fun h => h

instance decidableTakenOnceCall (token : String) (others : List Call) (i : Input) (w : World)
    (c : Call) : Decidable ((takenOnce token).call others i w c) :=
  inferInstanceAs (Decidable (_ → _ → _))

instance decidableTakenOnceEnv (token : String) (cs : List Call) (e : Event) (w : World) :
    Decidable ((takenOnce token).env cs e w) := isTrue trivial

/-- A token is redeemed once, and no row has its hash then. -/
structure Once (crypto : Crypto) (token : String) (w : World) : Prop where
  sent : ∀ m ∈ w.members, ∀ hash, m.inviteTokenHash = some hash →
    ∃ rawToken ∈ w.tokens, hash = crypto.sha256 rawToken
  unique : ∀ m ∈ w.members, ∀ m' ∈ w.members,
    m.inviteTokenHash = some (crypto.sha256 token) →
    m'.inviteTokenHash = some (crypto.sha256 token) → m.id = m'.id
  once : w.redeemed.count token ≤ 1
  gone : token ∈ w.redeemed → token ∈ w.tokens ∧
    ∀ m ∈ w.members, m.inviteTokenHash ≠ some (crypto.sha256 token)

/-- A call that has found the invite is about to update the row with its hash. -/
def Redeems (crypto : Crypto) (token : String) (w : World) : Call → Prop
  | .accepting token' _ (some memberId) => token' = token →
    token ∈ w.tokens ∧ token ∉ w.redeemed ∧
    ∀ m ∈ w.members, m.inviteTokenHash = some (crypto.sha256 token) → m.id = memberId
  | _ => True

/-- What a row with the hash of an old token was before the step. -/
theorem old_hash (hsha : Function.Injective crypto.sha256) (hmoves : Moves crypto w c w' c')
    (htoken : token ∈ w.tokens) {m : Member} (hm : m ∈ w'.members)
    (hhash : m.inviteTokenHash = some (crypto.sha256 token)) :
    ∃ m₀ ∈ w.members, m₀.id = m.id ∧ m₀.inviteTokenHash = some (crypto.sha256 token) := by
  rcases hash_moves hmoves hm hhash with h | ⟨-, rawToken, hfresh, -, heq⟩
  · exact h
  · exact absurd (hsha heq ▸ htoken) hfresh

/-- Every hash that is stored is that of a token that was sent. -/
theorem sent_moves (hmoves : Moves crypto w c w' c')
    (hsent : ∀ m ∈ w.members, ∀ hash, m.inviteTokenHash = some hash →
      ∃ rawToken ∈ w.tokens, hash = crypto.sha256 rawToken) :
    ∀ m ∈ w'.members, ∀ hash, m.inviteTokenHash = some hash →
      ∃ rawToken ∈ w'.tokens, hash = crypto.sha256 rawToken := by
  intro m hm hash hhash
  rcases hash_moves hmoves hm hhash with ⟨m₀, hm₀, -, hhash₀⟩ | ⟨-, rawToken, -, htokens, heq⟩
  · obtain ⟨rawToken, hmem, heq⟩ := hsent m₀ hm₀ hash hhash₀
    exact ⟨rawToken, tokens_moves hmoves hmem, heq⟩
  · exact ⟨rawToken, htokens ▸ List.mem_append_right _ List.mem_cons_self, heq⟩

/-- No two rows have the hash of one token. -/
theorem unique_moves (hsha : Function.Injective crypto.sha256) (hw : Once crypto token w)
    (hmoves : Moves crypto w c w' c') :
    ∀ m ∈ w'.members, ∀ m' ∈ w'.members, m.inviteTokenHash = some (crypto.sha256 token) →
      m'.inviteTokenHash = some (crypto.sha256 token) → m.id = m'.id := by
  intro m hm m' hm' hhash hhash'
  have hold : ∀ m₀ ∈ w.members, m₀.inviteTokenHash = some (crypto.sha256 token) →
      token ∈ w.tokens := fun m₀ hm₀ hhash₀ => by
    obtain ⟨rawToken, hmem, heq⟩ := hw.sent m₀ hm₀ _ hhash₀
    exact hsha heq ▸ hmem
  rcases hash_moves hmoves hm hhash with ⟨m₀, hm₀, hid₀, hhash₀⟩ | ⟨hid, r, hfresh, -, heq⟩
  · obtain ⟨m₁, hm₁, hid₁, hhash₁⟩ := old_hash hsha hmoves (hold m₀ hm₀ hhash₀) hm' hhash'
    rw [← hid₀, ← hid₁]
    exact hw.unique m₀ hm₀ m₁ hm₁ hhash₀ hhash₁
  · rcases hash_moves hmoves hm' hhash' with ⟨m₁, hm₁, -, hhash₁⟩ | ⟨hid', -⟩
    · exact absurd (hsha heq ▸ hold m₁ hm₁ hhash₁) hfresh
    · exact hid.trans hid'.symm

/-- The tokens that a step redeems. -/
theorem redeemed_moves (hmoves : Moves crypto w c w' c') :
    w'.redeemed = w.redeemed ∨ ∃ token password memberId,
      c = .accepting token password (some memberId) ∧ w'.redeemed = w.redeemed ++ [token] ∧
      ∀ m ∈ w'.members, m.inviteTokenHash ≠ none → m ∈ w.members ∧ m.id ≠ memberId := by
  cases hmoves with
  | accepted =>
    exact .inr ⟨_, _, _, rfl, rfl, fun m hm hhash =>
      (mem_accept hm).resolve_right fun h => hhash h.2.2⟩
  | _ => exact .inl rfl

theorem once_moves (hsha : Function.Injective crypto.sha256) (hmoves : Moves crypto w c w' c')
    (hw : Once crypto token w) (hc : Redeems crypto token w c) : Once crypto token w' where
  sent := sent_moves hmoves hw.sent
  unique := unique_moves hsha hw hmoves
  once := by
    rcases redeemed_moves hmoves with heq | ⟨token', password, memberId, rfl, heq, -⟩
    · rw [heq]
      exact hw.once
    · rw [heq, List.count_append, List.count_singleton]
      split
      · next hsame => rw [List.count_eq_zero.mpr (hc (beq_iff_eq.mp hsame)).2.1]
      · exact hw.once
  gone := by
    intro hmem
    have hold : token ∈ w.redeemed → token ∈ w'.tokens ∧
        ∀ m ∈ w'.members, m.inviteTokenHash ≠ some (crypto.sha256 token) := fun hmem => by
      obtain ⟨hsent, hgone⟩ := hw.gone hmem
      refine ⟨tokens_moves hmoves hsent, fun m hm hhash => ?_⟩
      obtain ⟨m₀, hm₀, -, hhash₀⟩ := old_hash hsha hmoves hsent hm hhash
      exact hgone m₀ hm₀ hhash₀
    rcases redeemed_moves hmoves with heq | ⟨token', password, memberId, rfl, heq, hrows⟩
    · exact hold (heq ▸ hmem)
    · rw [heq] at hmem
      rcases List.mem_append.mp hmem with hmem | hmem
      · exact hold hmem
      · obtain ⟨hsent, -, hid⟩ := hc (List.mem_singleton.mp hmem).symm
        refine ⟨tokens_moves hmoves hsent, fun m hm hhash => ?_⟩
        obtain ⟨hm₀, hne⟩ := hrows m hm (hhash ▸ Option.some_ne_none _)
        exact hne (hid m hm₀ hhash)

/-- What `acceptInvite` has found, it may redeem. -/
theorem redeems_moves (hsha : Function.Injective crypto.sha256)
    (hmoves : Moves crypto w c w' c') (hw : Once crypto token w) :
    Redeems crypto token w' c' := by
  cases hmoves with
  | plain hplain =>
    cases c' with
    | accepting token' password memberId =>
      cases memberId with
      | none => trivial
      | some memberId => exact hplain.elim
    | _ => trivial
  | found hm hhash =>
    rintro rfl
    obtain ⟨rawToken, hsent, heq⟩ := hw.sent _ hm _ hhash
    refine ⟨hsha heq ▸ hsent, fun hmem => (hw.gone hmem).2 _ hm hhash, fun m' hm' hhash' => ?_⟩
    exact hw.unique m' hm' _ hm hhash' hhash
  | _ => trivial

/-- A step of a call that has not found the invite. -/
theorem Redeems.other {o : Call} (hsha : Function.Injective crypto.sha256)
    (hmoves : Moves crypto w c w' c') (ho : Redeems crypto token w o)
    (hapart : ¬ (Past token c ∧ Past token o)) : Redeems crypto token w' o := by
  cases o with
  | accepting token' password memberId =>
    cases memberId with
    | none => trivial
    | some memberId =>
      intro hsame
      obtain ⟨hsent, hnot, hid⟩ := ho hsame
      refine ⟨tokens_moves hmoves hsent, fun hmem => ?_, fun m hm hhash => ?_⟩
      · rcases redeemed_moves hmoves with heq | ⟨t, _, _, rfl, heq, -⟩
        · exact hnot (heq ▸ hmem)
        · rw [heq] at hmem
          rcases List.mem_append.mp hmem with hmem | hmem
          · exact hnot hmem
          · exact hapart ⟨(List.mem_singleton.mp hmem).symm, hsame⟩
      · obtain ⟨m₀, hm₀, hid₀, hhash₀⟩ := old_hash hsha hmoves hsent hm hhash
        exact hid₀ ▸ hid m₀ hm₀ hhash₀
  | _ => trivial

/-- An event leaves no row with another hash. -/
theorem event_rows (henv : (program crypto).env e w = some w') :
    (∀ m ∈ w'.members, m ∈ w.members) ∧ w'.tokens = w.tokens ∧ w'.redeemed = w.redeemed ∧
      w'.suspended = w.suspended ∧ w'.nextId = w.nextId := by
  cases e with
  | tick ms =>
    cases henv
    exact ⟨fun _ hm => hm, rfl, rfl, rfl, rfl⟩
  | removeMerchant merchantId =>
    cases henv
    exact ⟨fun _ hm => (Table.mem_delete.mp hm).1, rfl, rfl, rfl, rfl⟩

theorem Once.event (h : Once crypto token w) (henv : (program crypto).env e w = some w') :
    Once crypto token w' := by
  obtain ⟨hrows, htokens, hredeemed, -⟩ := event_rows henv
  refine ⟨fun m hm => htokens ▸ h.sent m (hrows m hm),
    fun m hm m' hm' => h.unique m (hrows m hm) m' (hrows m' hm'), hredeemed ▸ h.once,
    fun hmem => ?_⟩
  obtain ⟨hsent, hgone⟩ := h.gone (hredeemed ▸ hmem)
  exact ⟨htokens ▸ hsent, fun m hm => hgone m (hrows m hm)⟩

theorem Redeems.event {o : Call} (h : Redeems crypto token w o)
    (henv : (program crypto).env e w = some w') : Redeems crypto token w' o := by
  obtain ⟨hrows, htokens, hredeemed, -⟩ := event_rows henv
  cases o with
  | accepting token' password memberId =>
    cases memberId with
    | none => trivial
    | some memberId =>
      intro hsame
      obtain ⟨hsent, hnot, hid⟩ := h hsame
      exact ⟨htokens ▸ hsent, hredeemed ▸ hnot, fun m hm => hid m (hrows m hm)⟩
  | _ => trivial

/-- A call finds an invite only where no other call has. -/
theorem apart_exec {o : Call} (hexec : (program crypto).exec others i w c = some (w', c'))
    (hg : (takenOnce token).call others i w c) (ho : o ∈ others)
    (hapart : ¬ (Past token c ∧ Past token o)) : ¬ (Past token c' ∧ Past token o) := by
  rintro ⟨hpast, hpast'⟩
  cases moves_of_exec hexec with
  | plain hplain =>
    cases c' with
    | accepting token' password memberId =>
      cases memberId with
      | none => exact hpast
      | some memberId => exact hplain
    | _ => exact hpast
  | found =>
    cases i with
    | exec first random => exact hg rfl (beq_iff_eq.mpr hpast) o ho hpast'
    | throw => cases hexec
    | _ => cases hexec
  | _ => exact hpast

/-- **A call that is alone with an invite redeems it alone.** -/
theorem once_local (hsha : Function.Injective crypto.sha256) (token : String) :
    (program crypto).Local (takenOnce token) (Once crypto token) (Redeems crypto token)
      fun a b => ¬ (Past token a ∧ Past token b) where
  symm a b h := fun hab => h hab.symm
  seq := by
    intro cs i w c w' c' hexec _ hw hc _
    have hmoves := moves_of_exec hexec
    exact ⟨once_moves hsha hmoves hw hc, redeems_moves hsha hmoves hw⟩
  free := by
    intro cs i w c w' c' hexec hg _ _ o ho hQ hapart
    exact ⟨hQ.other hsha (moves_of_exec hexec) hapart, apart_exec hexec hg ho hapart⟩
  env := by
    intro cs e w w' henv _ hw hcs
    exact ⟨hw.event henv, fun o ho => (hcs o ho).event henv⟩

/-! ## Members that are suspended -/

/-- The call is about to make the member active. -/
def Accepts (id : Nat) : Call → Prop
  | .accepting _ _ (some memberId) => memberId = id
  | _ => False

/-- The `UPDATE` of `suspend` is next. -/
def Call.suspends (id : Nat) : Call → Bool
  | .suspending _ memberId => memberId == id
  | _ => false

/-- When a member is suspended, no call stands between the `SELECT` and the `UPDATE` of an
`acceptInvite` of the member. -/
def settled (id : Nat) : Program.Guard World Call Input Event where
  call others i _ c :=
    i.isExec = true → c.suspends id = true → ∀ o ∈ others, ¬ Accepts id o
  env _ _ _ := True

instance decidableAccepts (id : Nat) : DecidablePred (Accepts id)
  | .accepting _ _ (some memberId) => inferInstanceAs (Decidable (memberId = id))
  | .accepting _ _ none | .idle | .inviting .. | .loggingIn .. | .updatingRole .. | .suspending ..
  | .removing .. | .returned _ | .loggedIn .. | .threw .. | .failed => isFalse fun h => h

instance decidableSettledCall (id : Nat) (others : List Call) (i : Input) (w : World)
    (c : Call) : Decidable ((settled id).call others i w c) :=
  inferInstanceAs (Decidable (_ → _ → _))

instance decidableSettledEnv (id : Nat) (cs : List Call) (e : Event) (w : World) :
    Decidable ((settled id).env cs e w) := isTrue trivial

/-- Ids are not used again, and who was suspended is suspended. -/
structure Final (id : Nat) (w : World) : Prop where
  below : ∀ m ∈ w.members, m.id < w.nextId
  status : id ∈ w.suspended →
    id < w.nextId ∧ ∀ m ∈ w.members, m.id = id → m.status = .suspended

/-- Nobody makes a suspended member active, or logs in as one. -/
def Respects (id : Nat) (w : World) : Call → Prop
  | .accepting _ _ (some memberId) => memberId = id → id ∉ w.suspended
  | .loggingIn _ _ before none => id ∈ before → id ∈ w.suspended
  | .loggingIn _ _ before (some m) => m.id = id → id ∉ before
  | .loggedIn before memberId .. => memberId = id → id ∉ before
  | _ => True

theorem nextId_moves (hmoves : Moves crypto w c w' c') : w.nextId ≤ w'.nextId := by
  cases hmoves with
  | invited => exact Nat.le_succ _
  | _ => exact Nat.le_refl _

/-- Where the status of a row comes from. -/
theorem status_moves (hmoves : Moves crypto w c w' c') {m : Member} (hm : m ∈ w'.members) :
    (m.id = w.nextId ∧ w'.nextId = w.nextId + 1) ∨ ∃ m₀ ∈ w.members, m₀.id = m.id ∧
      (m₀.status = m.status ∨ m.status = .suspended ∨ Accepts m.id c) := by
  have hsame : (∃ m₀ ∈ w.members, m₀.id = m.id ∧ m₀.status = m.status) →
      ∃ m₀ ∈ w.members, m₀.id = m.id ∧
        (m₀.status = m.status ∨ m.status = .suspended ∨ Accepts m.id c) :=
    fun ⟨m₀, hm₀, hid, hstatus⟩ => ⟨m₀, hm₀, hid, .inl hstatus⟩
  cases hmoves with
  | plain => exact .inr (hsame ⟨m, hm, rfl, rfl⟩)
  | invited hfresh hid hnew hinsert =>
    rcases (Table.mem_of_insert? hinsert m).mp hm with hm | rfl
    · exact .inr (hsame ⟨m, hm, rfl, rfl⟩)
    · exact .inl ⟨hid, rfl⟩
  | found => exact .inr (hsame ⟨m, hm, rfl, rfl⟩)
  | accepted =>
    rcases mem_accept hm with ⟨hm, -⟩ | ⟨⟨m₀, hm₀, hid₀⟩, hid, -⟩
    · exact .inr (hsame ⟨m, hm, rfl, rfl⟩)
    · exact .inr ⟨m₀, hm₀, hid₀, .inr (.inr hid.symm)⟩
  | checked => exact .inr (hsame ⟨m, hm, rfl, rfl⟩)
  | loggedIn =>
    exact .inr (hsame (status_modify (Member.touch w.now) (fun _ => rfl) hm fun _ => ⟨rfl, rfl⟩))
  | roleSet =>
    exact .inr (hsame (status_modify (Member.setRole _ w.now) (fun _ => rfl) hm
      fun _ => ⟨rfl, rfl⟩))
  | suspended =>
    rcases mem_suspend hm with hm | ⟨⟨m₀, hm₀, hid₀⟩, hstatus⟩
    · exact .inr (hsame ⟨m, hm.1, rfl, rfl⟩)
    · exact .inr ⟨m₀, hm₀, hid₀, .inr (.inl hstatus)⟩
  | removed => exact .inr (hsame ⟨m, (Table.mem_delete.mp hm).1, rfl, rfl⟩)

/-- The `UPDATE` of `suspend` reaches every row of the member. -/
theorem suspended_of_found {merchantId memberId : Nat} {m : Member}
    (hfound : ∃ m ∈ w.members, m.id = memberId ∧ m.merchantId = merchantId)
    (hm : m ∈ w.members.modify (fun m => m.id == memberId && m.merchantId == merchantId)
      (Member.suspend w.now) fun _ => rfl) (hid : m.id = memberId) : m.status = .suspended := by
  rcases mem_suspend hm with ⟨hm, hother⟩ | ⟨-, hstatus⟩
  · obtain ⟨m₀, hm₀, hid₀, hmerchant⟩ := hfound
    have heq : m = m₀ := Table.eq_of_conflict hm hm₀ (.inl (hid.trans hid₀.symm))
    exact absurd ⟨hid, heq ▸ hmerchant⟩ hother
  · exact hstatus

/-- Who is suspended by a step. -/
theorem suspended_moves (hmoves : Moves crypto w c w' c') :
    w'.suspended = w.suspended ∨ ∃ merchantId memberId, c = .suspending merchantId memberId ∧
      w'.suspended = w.suspended ++ [memberId] ∧ (∃ m ∈ w.members, m.id = memberId) ∧
      ∀ m ∈ w'.members, m.id = memberId → m.status = .suspended := by
  cases hmoves with
  | @suspended _ merchantId memberId _ hfound =>
    obtain ⟨m, hm, hid, -⟩ := id hfound
    exact .inr ⟨merchantId, memberId, rfl, rfl, ⟨m, hm, hid⟩,
      fun m hm hid => suspended_of_found hfound hm hid⟩
  | _ => exact .inl rfl

theorem final_moves (hmoves : Moves crypto w c w' c') (hw : Final id w)
    (hc : Respects id w c) : Final id w' where
  below := by
    intro m hm
    rcases status_moves hmoves hm with ⟨hid, hnext⟩ | ⟨m₀, hm₀, hid, -⟩
    · rw [hid, hnext]
      exact Nat.lt_succ_self _
    · exact hid ▸ Nat.lt_of_lt_of_le (hw.below m₀ hm₀) (nextId_moves hmoves)
  status := by
    have hold : id ∈ w.suspended →
        id < w'.nextId ∧ ∀ m ∈ w'.members, m.id = id → m.status = .suspended := fun hmem => by
      obtain ⟨hlt, hstatus⟩ := hw.status hmem
      refine ⟨Nat.lt_of_lt_of_le hlt (nextId_moves hmoves), fun m hm hid => ?_⟩
      rcases status_moves hmoves hm with ⟨hnew, -⟩ | ⟨m₀, hm₀, hid₀, hsame | hsusp | hacc⟩
      · omega
      · exact hsame ▸ hstatus m₀ hm₀ (hid₀.trans hid)
      · exact hsusp
      · -- the only way back to 'active'
        cases c with
        | accepting token password memberId =>
          cases memberId with
          | none => exact hacc.elim
          | some memberId => exact absurd hmem (hc (hacc.trans hid))
        | _ => exact hacc.elim
    intro hmem
    rcases suspended_moves hmoves with heq | ⟨merchantId, memberId, rfl, heq, ⟨m, hm, rfl⟩, hrows⟩
    · exact hold (heq ▸ hmem)
    · rw [heq] at hmem
      rcases List.mem_append.mp hmem with hmem | hmem
      · exact hold hmem
      · rw [List.mem_singleton.mp hmem]
        exact ⟨Nat.lt_of_lt_of_le (hw.below m hm) (nextId_moves hmoves), hrows⟩

theorem respects_moves (hmoves : Moves crypto w c w' c') (hw : Final id w)
    (hc : Respects id w c) : Respects id w' c' := by
  cases hmoves with
  | plain hplain =>
    cases c' with
    | accepting token password memberId =>
      cases memberId with
      | none => trivial
      | some memberId => exact hplain.elim
    | loggingIn email password before member =>
      cases member with
      | none => exact fun hmem => hplain ▸ hmem
      | some member => exact hplain.elim
    | loggedIn => exact hplain.elim
    | _ => trivial
  | found hm hhash hpending =>
    intro hid hmem
    rw [(hw.status hmem).2 _ hm hid] at hpending
    cases hpending
  | checked hm hactive =>
    intro hid hmem
    rw [(hw.status (hc hmem)).2 _ hm hid] at hactive
    cases hactive
  | loggedIn => exact hc
  | _ => trivial

/-- A step of another call. -/
theorem respects_other {o : Call}
    (hexec : (program crypto).exec others i w c = some (w', c'))
    (hg : (settled id).call others i w c) (ho : o ∈ others) (hQ : Respects id w o) :
    Respects id w' o := by
  have hmoves := moves_of_exec hexec
  cases o with
  | accepting token password memberId =>
    cases memberId with
    | none => trivial
    | some memberId =>
      intro hid hmem
      rcases suspended_moves hmoves with heq | ⟨merchantId, memberId', rfl, heq, -⟩
      · exact hQ hid (heq ▸ hmem)
      · rw [heq] at hmem
        rcases List.mem_append.mp hmem with hmem | hmem
        · exact hQ hid hmem
        · cases i with
          | exec first random =>
            exact hg rfl (beq_iff_eq.mpr (List.mem_singleton.mp hmem).symm) _ ho hid
          | throw =>
            cases hexec
            exact absurd (List.self_eq_append_right.mp heq) nofun
          | _ => cases hexec
  | loggingIn email password before member =>
    cases member with
    | none =>
      intro hmem
      rcases suspended_moves hmoves with heq | ⟨_, _, -, heq, -⟩
      · exact heq ▸ hQ hmem
      · exact heq ▸ List.mem_append_left _ (hQ hmem)
    | some member => exact hQ
  | loggedIn => exact hQ
  | _ => trivial

/-- **A suspension is final** where it does not meet an `acceptInvite` halfway. -/
theorem final_local (crypto : Crypto) (id : Nat) :
    (program crypto).Local (settled id) (Final id) (Respects id) fun _ _ => True where
  symm _ _ _ := trivial
  seq := by
    intro cs i w c w' c' hexec _ hw hc _
    have hmoves := moves_of_exec hexec
    exact ⟨final_moves hmoves hw hc, respects_moves hmoves hw hc⟩
  free := by
    intro cs i w c w' c' hexec hg _ _ o ho hQ _
    exact ⟨respects_other hexec hg ho hQ, trivial⟩
  env := by
    intro cs e w w' henv _ hw hcs
    obtain ⟨hrows, -, -, hsuspended, hnext⟩ := event_rows henv
    refine ⟨⟨fun m hm => hnext ▸ hw.below m (hrows m hm), fun hmem => ?_⟩, fun o ho => ?_⟩
    · obtain ⟨hlt, hstatus⟩ := hw.status (hsuspended ▸ hmem)
      exact ⟨hnext ▸ hlt, fun m hm => hstatus m (hrows m hm)⟩
    · have hQ := hcs o ho
      cases o with
      | accepting token password memberId =>
        cases memberId with
        | none => trivial
        | some memberId => exact fun hid => hsuspended ▸ hQ hid
      | loggingIn email password before member =>
        cases member with
        | none => exact fun hmem => hsuspended ▸ hQ hmem
        | some member => exact hQ
      | loggedIn => exact hQ
      | _ => trivial

/-! ## Whole runs -/

theorem once_idle (n : Nat) : Program.Inv (Once crypto token) (Redeems crypto token)
    (fun a b => ¬ (Past token a ∧ Past token b)) (idle n) where
  db := ⟨fun _ hm => absurd hm List.not_mem_nil, fun _ hm => absurd hm List.not_mem_nil,
    Nat.zero_le 1, fun hmem => absurd hmem List.not_mem_nil⟩
  calls _ := trivial
  apart _ _ _ h := h.1

theorem final_idle (n : Nat) :
    Program.Inv (Final id) (Respects id) (fun _ _ => True) (idle n) where
  db := ⟨fun _ hm => absurd hm List.not_mem_nil, fun hmem => absurd hmem List.not_mem_nil⟩
  calls _ := trivial
  apart _ _ _ := trivial

/-- **Invites are redeemed once, and suspension is final**: one call at most is successful
with a token, if no call reads it while another one has found it; a member that was suspended
stays so, and no later login as the member succeeds, if it was not suspended while an
`acceptInvite` of the member stood between its statements. -/
theorem redeemed_once_and_suspended (hsha : Function.Injective crypto.sha256) {n : Nat}
    {as : List (Program.Label Input Event n)} {t : Program.Sys World Call n}
    (hrun : ((program crypto).interleave n).run (idle n) as = some t) :
    (∀ token, ((program crypto).interleave n).Guarded (takenOnce token).admits (idle n) as →
      t.db.redeemed.count token ≤ 1) ∧
    ∀ id, ((program crypto).interleave n).Guarded (settled id).admits (idle n) as →
      (id ∈ t.db.suspended → ∀ m ∈ t.db.members, m.id = id → m.status = .suspended) ∧
      ∀ k before email name role merchantId,
        t.calls k = .loggedIn before id email name role merchantId → id ∉ before := by
  constructor
  · intro token hg
    exact ((once_local hsha token).inv_of_guarded_run (once_idle n) hg hrun).db.once
  · intro id hg
    have hinv := (final_local crypto id).inv_of_guarded_run (final_idle n) hg hrun
    refine ⟨fun hmem => (hinv.db.status hmem).2, fun k before email name role merchantId hk => ?_⟩
    have hQ := hinv.calls k
    rw [hk] at hQ
    exact hQ rfl

end Moves

/-! ## Calls that meet halfway -/

/-- Functions without collisions. -/
def plainCrypto : Crypto where
  sha256 token := "#" ++ token
  scrypt password salt _ _ _ := password ++ salt

theorem plainCrypto_injective : Function.Injective plainCrypto.sha256 :=
  fun _ _ h => (String.append_right_inj _).mp h

/-- The next statement of a call. -/
def next (k : Fin 2) : Program.Label Input Event 2 := .call k (.exec 0 "aa")

/-- The owner invites somebody: member 0, with the token "aa". -/
def invites : List (Program.Label Input Event 2) :=
  [.call 0 (.invite 1 .owner "dev@company.com" "Alice Dev" .developer), next 0, next 0]

def accepts (k : Fin 2) : List (Program.Label Input Event 2) :=
  [.call k (.acceptInvite "aa" "a long password"), next k]

def suspends (k : Fin 2) : List (Program.Label Input Event 2) :=
  [.call k (.suspend 1 0 .owner), next k]

def logsIn (k : Fin 2) : List (Program.Label Input Event 2) :=
  [.call k (.login "dev@company.com" "a long password"), next k, next k]

/-- The call is a login as member 0 that started after the member was suspended. -/
def lateLogin : Call → Bool
  | .loggedIn before id _ _ _ _ => id == 0 && before.contains 0
  | _ => false

/-- Two calls find an invite before either redeems it; and a member that is suspended while
an `acceptInvite` hashes the password is active again after it. -/
theorem redeemed_twice_and_undone :
    (∃ t : Program.Sys World Call 2, ((program plainCrypto).interleave 2).run (idle 2)
      (invites ++ accepts 0 ++ accepts 1 ++ [next 0, next 1]) = some t ∧
      t.db.redeemed.count "aa" = 2 ∧
      t.calls 0 = .returned (.accepted "Invite accepted. You can now log in.") ∧
      t.calls 1 = .returned (.accepted "Invite accepted. You can now log in.")) ∧
    ∃ t : Program.Sys World Call 2, ((program plainCrypto).interleave 2).run (idle 2)
      (invites ++ accepts 0 ++ suspends 1 ++ [next 0] ++ logsIn 1) = some t ∧
      0 ∈ t.db.suspended ∧ (∃ m ∈ t.db.members, m.id = 0 ∧ m.status = .active) ∧
      lateLogin (t.calls 1) = true := by
  constructor
  · obtain ⟨t, hrun, hcount, h0, h1⟩ := ((program plainCrypto).interleave 2).exists_of_leadsTo
      (fun t => t.db.redeemed.count "aa" = 2 ∧
        t.calls 0 = .returned (.accepted "Invite accepted. You can now log in.") ∧
        t.calls 1 = .returned (.accepted "Invite accepted. You can now log in.")) (idle 2)
      (invites ++ accepts 0 ++ accepts 1 ++ [next 0, next 1]) (by decide +kernel)
    exact ⟨t, hrun, hcount, h0, h1⟩
  · obtain ⟨t, hrun, hmem, hactive, hlogin⟩ :=
      ((program plainCrypto).interleave 2).exists_of_leadsTo
        (fun t => 0 ∈ t.db.suspended ∧
          (∃ m ∈ t.db.members.rows, m.id = 0 ∧ m.status = .active) ∧
          lateLogin (t.calls 1) = true) (idle 2)
        (invites ++ accepts 0 ++ suspends 1 ++ [next 0] ++ logsIn 1) (by decide +kernel)
    exact ⟨t, hrun, hmem, hactive, hlogin⟩

/-- A member accepts the invite, and is suspended; the token and the password are worth
nothing afterwards. -/
theorem redeemed_and_suspended_inTurn : ∃ t : Program.Sys World Call 2,
    ((program plainCrypto).interleave 2).run (idle 2)
      (invites ++ accepts 0 ++ [next 0] ++ accepts 1 ++ suspends 1 ++
        [.call 0 (.login "dev@company.com" "a long password"), next 0]) = some t ∧
    0 ∈ t.db.suspended ∧ t.calls 0 = .threw 403 "Account suspended" ∧
    t.db.redeemed.count "aa" ≤ 1 ∧
    ∀ m ∈ t.db.members, m.id = 0 → m.status = .suspended := by
  obtain ⟨t, hrun, hmem, h0⟩ := ((program plainCrypto).interleave 2).exists_of_leadsTo
    (fun t => 0 ∈ t.db.suspended ∧ t.calls 0 = .threw 403 "Account suspended") (idle 2)
    (invites ++ accepts 0 ++ [next 0] ++ accepts 1 ++ suspends 1 ++
      [.call 0 (.login "dev@company.com" "a long password"), next 0]) (by decide +kernel)
  obtain ⟨hredeemed, hsuspended⟩ := redeemed_once_and_suspended plainCrypto_injective hrun
  exact ⟨t, hrun, hmem, h0, hredeemed "aa" (by decide +kernel),
    (hsuspended 0 (by decide +kernel)).1 hmem⟩

end Stargate.TeamMembers
