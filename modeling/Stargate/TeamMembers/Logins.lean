import Stargate.Base.EcmaScript
import Stargate.TeamMembers.Invites

/-!
# Logins of team members

An email may be invited by several merchants. `login` selects by the email alone, and decides
with the first of the rows that it gets.

- `verifyPassword_hashPassword`: the text that `hashPassword` stores is read back by
  `verifyPassword`;
- `passwordProgram`: the calls, with the password that each member has given last;
- `Recorded`: the rows have the hashes of these passwords;
- `LogsIn`: a login that succeeds as it should;
- `login_iff`: the members who can log in whatever the order of the rows is.
-/

namespace Stargate.TeamMembers

open Base

/-! ## Passwords -/

/-- A digit of `toString('hex')`. -/
def isHexDigit (c : Char) : Bool := c.isDigit || ('a' ≤ c && c ≤ 'f')

def isHex (s : String) : Bool := s.toList.all isHexDigit

theorem not_mem_of_isHex {s : String} (h : isHex s = true) : '$' ∉ s.toList := by
  intro hmem
  have hdigit : isHexDigit '$' = true := List.all_eq_true.mp h '$' hmem
  exact absurd hdigit (by decide)

/-- The fixed parts of a stored password. -/
def scryptParts : List (List Char) := ["scrypt".toList, "32768".toList, "8".toList, "1".toList]

theorem not_mem_scryptParts : ∀ part ∈ scryptParts, '$' ∉ part := by
  decide +kernel

theorem toList_hashPassword (crypto : Crypto) (password salt : String) :
    (hashPassword crypto password salt).toList
      = (scryptParts ++ [salt.toList]).foldr (fun part rest => part ++ '$' :: rest)
        (crypto.scrypt password salt "32768" "8" "1").toList := by
  have hjoin : ∀ head mark digest : String, mark.toList = ['$'] →
      head.toList = scryptParts.foldr (fun part rest => part ++ '$' :: rest) [] →
      (head ++ salt ++ mark ++ digest).toList = (scryptParts ++ [salt.toList]).foldr
        (fun part rest => part ++ '$' :: rest) digest.toList := by
    intro head mark digest hmark hhead
    rw [String.toList_append, String.toList_append, String.toList_append, hmark, hhead]
    simp only [scryptParts, List.foldr_cons, List.foldr_nil, List.cons_append, List.nil_append,
      List.append_assoc]
  exact hjoin "scrypt$32768$8$1$" "$" _ rfl rfl

/-- `verifyPassword` compares with the digest that `hashPassword` has put down. -/
theorem verifyPassword_hashPassword {crypto : Crypto} {password given salt : String}
    (hsalt : isHex salt = true)
    (hdigest : isHex (crypto.scrypt password salt "32768" "8" "1") = true) :
    verifyPassword crypto given (hashPassword crypto password salt)
      = (crypto.scrypt given salt "32768" "8" "1"
          == crypto.scrypt password salt "32768" "8" "1") := by
  have hparts : ∀ part ∈ scryptParts ++ [salt.toList], '$' ∉ part := by
    intro part hpart
    rcases List.mem_append.mp hpart with hpart | hpart
    · exact not_mem_scryptParts part hpart
    · rw [List.mem_singleton.mp hpart]
      exact not_mem_of_isHex hsalt
  unfold verifyPassword
  rw [toList_hashPassword, splitOn_foldr hparts (not_mem_of_isHex hdigest)]
  simp only [scryptParts, List.cons_append, List.nil_append, String.ofList_toList]

/-- `verifyPassword` accepts the password that was hashed, and no other. -/
def Exact (crypto : Crypto) : Prop :=
  ∀ password given salt : String, isHex salt = true →
    (verifyPassword crypto given (hashPassword crypto password salt) = true ↔ given = password)

/-- It is so where `scrypt` has no collisions. -/
theorem exact_of_injective {crypto : Crypto}
    (hdigest : ∀ password salt, isHex (crypto.scrypt password salt "32768" "8" "1") = true)
    (hinj : ∀ salt,
      Function.Injective fun password => crypto.scrypt password salt "32768" "8" "1") :
    Exact crypto := by
  intro password given salt hsalt
  rw [verifyPassword_hashPassword hsalt (hdigest password salt), beq_iff_eq]
  exact (hinj salt).eq_iff

/-! ## Runs -/

/-- The rows, with the password that a member has given last. -/
structure Store where
  world : World
  passwords : Nat → Option String

/-- A member gives a password, if it has not been removed. -/
def Store.give (s : Store) (memberId : Nat) (password : String) : Nat → Option String :=
  if s.world.members.rows.any fun m => m.id == memberId then
    Function.update s.passwords memberId (some password)
  else s.passwords

/-- The passwords after a statement: the `UPDATE` of `acceptInvite` stores the hash of one. -/
def Store.record (s : Store) : Input → Call → Nat → Option String
  | .exec _ _, .accepting _ password (some memberId) => s.give memberId password
  | _, _ => s.passwords

/-- Random bytes are written in hexadecimal digits. -/
def Input.hexRandom : Input → Bool
  | .exec _ random => isHex random
  | _ => true

/-- Any number of calls, beside the record. -/
def passwordProgram (crypto : Crypto) : Program Store Call Input Event where
  exec others i s c :=
    if i.hexRandom then
      ((program crypto).exec others i s.world c).map fun (world, c') =>
        ({ world, passwords := s.record i c }, c')
    else none
  env e s := ((program crypto).env e s.world).map fun world => { s with world }

/-- Nobody has been invited yet. -/
def start (n : Nat) : Program.Sys Store Call n where
  db := ⟨(idle n).db, fun _ => none⟩
  calls := (idle n).calls

/-! ## What a statement does to the rows -/

section Rows

variable {crypto : Crypto} {w w' : World} {c c' : Call} {m : Member} {first : Nat}
  {random : String} {e : Event}

/-- Where a row comes from, if no invite was accepted. -/
inductive Origin (w w' : World) (m : Member) : Prop
  /-- Its password is the one it had, and it has not become active. -/
  | kept (m₀ : Member) (hmem : m₀ ∈ w.members) (hid : m.id = m₀.id)
      (hhash : m.passwordHash = m₀.passwordHash)
      (hactive : m.status = .active → m₀.status = .active)
  | invited (hid : m.id = w.nextId) (hnext : w'.nextId = w.nextId + 1)
      (hhash : m.passwordHash = none) (hpending : m.status = .pending)

/-- Every row has an origin, and no id is given away twice. -/
structure Origins (w w' : World) : Prop where
  next : w.nextId ≤ w'.nextId
  rows : ∀ m ∈ w'.members, Origin w w' m

theorem origins_self (w : World) : Origins w w where
  next := le_rfl
  rows m hm := .kept m hm rfl rfl id

theorem origins_modify {p : Member → Bool} (f : Member → Member)
    (hkey : ∀ m, Keyed.key (f m) = Keyed.key m) (hmembers : w'.members = w.members.modify p f hkey)
    (hnext : w'.nextId = w.nextId)
    (hf : ∀ m, (f m).passwordHash = m.passwordHash ∧
      ((f m).status = .active → m.status = .active)) : Origins w w' where
  next := hnext.ge
  rows m hm := by
    rw [hmembers] at hm
    obtain ⟨m₀, hm₀, rfl⟩ := (Table.mem_modify hkey).mp hm
    split
    · exact .kept m₀ hm₀ (congrArg Prod.fst (hkey m₀)) (hf m₀).1 (hf m₀).2
    · exact .kept m₀ hm₀ rfl rfl id

theorem origins_delete {p : Member → Bool} :
    Origins w { w with members := w.members.delete p } where
  next := le_rfl
  rows m hm := .kept m (Table.mem_delete.mp hm).1 rfl rfl id

/-- A statement that depends on a condition. -/
theorem origins_ite {p : Prop} [Decidable p] {x y : World × Call}
    (h : (if p then some x else some y) = some (w', c')) (hx : Origins w x.1)
    (hy : Origins w y.1) : Origins w w' := by
  split at h
  · cases h
    exact hx
  · cases h
    exact hy

theorem origins_insertMember {merchantId : Nat} {email name rawToken : String} {role : Role}
    (h : insertMember crypto w merchantId email name role rawToken = some (w', c')) :
    Origins w w' := by
  simp only [insertMember] at h
  split at h
  · cases h
  · split at h
    · cases h
      exact origins_self w
    · split at h
      · cases h
        exact origins_self w
      · next members hinsert =>
        cases h
        refine ⟨Nat.le_succ _, fun m hm => ?_⟩
        rcases (Table.mem_of_insert? hinsert m).mp hm with hm | rfl
        · exact .kept m hm rfl rfl id
        · exact .invited rfl rfl rfl rfl

/-- No other statement touches passwords. -/
theorem origins_exec (h : c.exec crypto first random w = some (w', c'))
    (hc : ∀ token password memberId, c ≠ .accepting token password (some memberId)) :
    Origins w w' := by
  cases c with
  | inviting merchantId email name role checked =>
    cases checked with
    | false => exact origins_ite h (origins_self w) (origins_self w)
    | true => exact origins_insertMember h
  | accepting token password memberId =>
    cases memberId with
    | none =>
      cases h
      exact origins_self w
    | some memberId => exact absurd rfl (hc token password memberId)
  | loggingIn email password before member =>
    cases member with
    | none =>
      cases h
      exact origins_self w
    | some member =>
      cases h
      exact origins_modify (Member.touch w.now) (fun _ => rfl) rfl rfl fun _ => ⟨rfl, id⟩
  | updatingRole merchantId memberId role found =>
    cases found with
    | false => exact origins_ite h (origins_self w) (origins_self w)
    | true =>
      refine origins_ite h (origins_self w) ?_
      exact origins_modify (Member.setRole role w.now) (fun _ => rfl) rfl rfl
        fun _ => ⟨rfl, id⟩
  | suspending merchantId memberId =>
    refine origins_ite h ?_ (origins_self w)
    refine origins_modify (Member.suspend w.now) (fun _ => rfl) rfl rfl fun _ => ⟨rfl, ?_⟩
    -- the new status is not `active`
    intro hactive
    cases hactive
  | removing merchantId memberId => exact origins_ite h origins_delete (origins_self w)
  | _ => cases h

theorem origins_env (h : (program crypto).env e w = some w') : Origins w w' := by
  cases e with
  | tick ms =>
    cases h
    exact ⟨le_rfl, fun m hm => .kept m hm rfl rfl id⟩
  | removeMerchant merchantId =>
    cases h
    exact origins_delete

end Rows

/-! ## The record -/

/-- The row of a member who has given this password last, or none. -/
def HasPassword (crypto : Crypto) (m : Member) : Option String → Prop
  | none => m.passwordHash = none ∧ m.status ≠ .active
  | some password =>
    ∃ salt, isHex salt = true ∧ m.passwordHash = some (hashPassword crypto password salt)

/-- The rows have the hashes of the passwords that were given. -/
structure Recorded (crypto : Crypto) (s : Store) : Prop where
  rows : ∀ m ∈ s.world.members, HasPassword crypto m (s.passwords m.id)
  /-- Nobody has the next id yet. -/
  fresh : ∀ m ∈ s.world.members, m.id < s.world.nextId
  known : ∀ id, s.passwords id ≠ none → id < s.world.nextId

section Recorded

variable {crypto : Crypto} {s : Store} {w : World} {c c' : Call} {first : Nat} {random : String}

theorem HasPassword.of_eq {m m₀ : Member} {password : Option String}
    (hhash : m.passwordHash = m₀.passwordHash) (hactive : m.status = .active → m₀.status = .active)
    (h : HasPassword crypto m₀ password) : HasPassword crypto m password := by
  cases password with
  | none => exact ⟨hhash.trans h.1, fun hyes => h.2 (hactive hyes)⟩
  | some password =>
    obtain ⟨salt, hsalt, heq⟩ := h
    exact ⟨salt, hsalt, hhash.trans heq⟩

theorem Recorded.of_origins (h : Recorded crypto s) (horigins : Origins s.world w) :
    Recorded crypto { s with world := w } where
  rows m hm := by
    cases horigins.rows m hm with
    | kept m₀ hm₀ hid hhash hactive =>
      have hold : HasPassword crypto m₀ (s.passwords m₀.id) := h.rows m₀ hm₀
      rw [hid]
      exact hold.of_eq hhash hactive
    | invited hid hnext hhash hpending =>
      have hnobody : s.passwords m.id = none := by
        by_contra hne
        exact absurd (h.known m.id hne) (hid ▸ Nat.lt_irrefl _)
      show HasPassword crypto m (s.passwords m.id)
      rw [hnobody]
      exact ⟨hhash, fun hactive => nomatch hpending.symm.trans hactive⟩
  fresh m hm := by
    cases horigins.rows m hm with
    | kept m₀ hm₀ hid hhash hactive => exact hid ▸ (h.fresh m₀ hm₀).trans_le horigins.next
    | invited hid hnext hhash hpending =>
      rw [hid, hnext]
      exact Nat.lt_succ_self _
  known id hid := (h.known id hid).trans_le horigins.next

theorem Store.give_of_ne {memberId id : Nat} (password : String) (h : id ≠ memberId) :
    s.give memberId password id = s.passwords id := by
  unfold Store.give
  split
  · exact Function.update_of_ne h _ _
  · rfl

theorem Store.give_of_mem {m : Member} (password : String) (hm : m ∈ s.world.members) :
    s.give m.id password m.id = some password := by
  have hthere : (s.world.members.rows.any fun m' => m'.id == m.id) = true :=
    List.any_eq_true.mpr ⟨m, hm, beq_self_eq_true m.id⟩
  unfold Store.give
  rw [if_pos hthere, Function.update_self]

/-- Nobody else gets a password. -/
theorem Store.known_give {memberId id : Nat} {password : String}
    (h : s.give memberId password id ≠ none) :
    s.passwords id ≠ none ∨ ∃ m ∈ s.world.members, m.id = id := by
  by_cases heq : id = memberId
  · unfold Store.give at h
    split at h
    · next hthere =>
      obtain ⟨m, hm, hmid⟩ := List.any_eq_true.mp hthere
      exact .inr ⟨m, hm, (beq_iff_eq.mp hmid).trans heq.symm⟩
    · exact .inl h
  · rw [s.give_of_ne password heq] at h
    exact .inl h

/-- The rows after the `UPDATE` of `acceptInvite`, with the hash that it stores. -/
theorem mem_accepted {memberId now : Nat} {passwordHash : String} {m : Member}
    (hm : m ∈ w.members.modify (fun m => m.id == memberId) (Member.accept passwordHash now)
      fun _ => rfl) :
    m ∈ w.members ∧ m.id ≠ memberId ∨
      ∃ m₀ ∈ w.members, m₀.id = memberId ∧ m = m₀.accept passwordHash now := by
  rcases Table.of_mem_modify hm with ⟨hm, hid⟩ | ⟨m₀, hm₀, hid, rfl⟩
  · exact .inl ⟨hm, beq_eq_false_iff_ne.mp hid⟩
  · exact .inr ⟨m₀, hm₀, beq_iff_eq.mp hid, rfl⟩

/-- The `UPDATE` of `acceptInvite` stores the hash of the password that it is given. -/
theorem Recorded.accept {password : String} {memberId : Nat} {redeemed : List String}
    (h : Recorded crypto s) (hsalt : isHex random = true) :
    Recorded crypto
      { world := { s.world with
          members := s.world.members.modify (fun m => m.id == memberId)
            (Member.accept (hashPassword crypto password random) s.world.now) fun _ => rfl
          redeemed }
        passwords := s.give memberId password } where
  rows m hm := by
    show HasPassword crypto m (s.give memberId password m.id)
    rcases mem_accepted hm with ⟨hm, hne⟩ | ⟨m₀, hm₀, rfl, rfl⟩
    · rw [s.give_of_ne password hne]
      exact h.rows m hm
    · rw [show (Member.accept _ _ m₀).id = m₀.id from rfl, Store.give_of_mem password hm₀]
      exact ⟨random, hsalt, rfl⟩
  fresh m hm := by
    rcases mem_accepted hm with ⟨hm, -⟩ | ⟨m₀, hm₀, -, rfl⟩
    · exact h.fresh m hm
    · exact h.fresh m₀ hm₀
  known id hid := by
    rcases Store.known_give hid with hid | ⟨m, hm, rfl⟩
    · exact h.known id hid
    · exact h.fresh m hm

theorem recorded_exec (h : Recorded crypto s) (hsalt : isHex random = true)
    (hexec : c.exec crypto first random s.world = some (w, c')) :
    Recorded crypto { world := w, passwords := s.record (.exec first random) c } := by
  by_cases hc : ∃ token password memberId, c = .accepting token password (some memberId)
  · obtain ⟨token, password, memberId, rfl⟩ := hc
    cases hexec
    exact h.accept hsalt
  · have hsame : s.record (.exec first random) c = s.passwords := by
      unfold Store.record
      split
      · exact absurd ⟨_, _, _, rfl⟩ hc
      · rfl
    rw [hsame]
    exact h.of_origins (origins_exec hexec fun token password memberId heq =>
      hc ⟨token, password, memberId, heq⟩)

/-- What is not a statement leaves the rows alone. -/
theorem world_of_start {others : List Call} {i : Input} {w₀ : World}
    (h : (program crypto).exec others i w₀ c = some (w, c')) (hi : i.isExec = false) :
    w = w₀ := by
  cases i with
  | exec first random => cases hi
  | throw =>
    simp only [program] at h
    split at h
    · cases h
    · cases h
      rfl
  | _ =>
    simp only [program] at h
    split at h
    · obtain ⟨c₁, -, heq⟩ := Option.map_eq_some_iff.mp h
      cases heq
      rfl
    · cases h

theorem recorded_call {others : List Call} {i : Input} {s' : Store} (h : Recorded crypto s)
    (hexec : (passwordProgram crypto).exec others i s c = some (s', c')) : Recorded crypto s' := by
  simp only [passwordProgram] at hexec
  split at hexec
  · next hrandom =>
    obtain ⟨⟨w, c₁⟩, hcall, heq⟩ := Option.map_eq_some_iff.mp hexec
    cases heq
    cases hi : i.isExec with
    | true =>
      cases i with
      | exec first random => exact recorded_exec h hrandom hcall
      | _ => cases hi
    | false =>
      have hsame : w = s.world := world_of_start hcall hi
      rw [hsame]
      cases i with
      | exec first random => cases hi
      | _ => exact h
  · cases hexec

variable {n : Nat} {t : Program.Sys Store Call n} {as : List (Program.Label Input Event n)}

/-- **The record is right** in every state of every run. -/
theorem recorded_run (hr : ((passwordProgram crypto).interleave n).run (start n) as = some t) :
    Recorded crypto t.db := by
  have hstart : Recorded crypto (start n).db :=
    ⟨fun _ hm => (nomatch hm), fun _ hm => (nomatch hm), fun _ hid => absurd rfl hid⟩
  refine Lts.inv_of_run _ (I := fun s => Recorded crypto s.db) (fun s a s' h hs => ?_) hstart hr
  cases a with
  | call k i =>
    obtain ⟨db, c, hexec, rfl⟩ := (passwordProgram crypto).step_call.mp hs
    exact recorded_call h hexec
  | env e =>
    obtain ⟨db, henv, rfl⟩ := (passwordProgram crypto).step_env.mp hs
    obtain ⟨w, hw, rfl⟩ := Option.map_eq_some_iff.mp henv
    exact h.of_origins (origins_env hw)

end Recorded

/-! ## Logins -/

/-- `login(email, password)`, with nothing interleaved; `first` is the row that comes first. -/
def login (crypto : Crypto) (first : Nat) (w : World) (email password : String) :
    Option Call := do
  let (w, c) ← (program crypto).exec [] (.login email password) w .idle
  let (w, c) ← (program crypto).exec [] (.exec first "") w c
  match (program crypto).exec [] (.exec first "") w c with
  | some (_, c) => return c
  -- the checks have failed, and there is no `UPDATE`
  | none => return c

/-- An active membership for which the password is valid. -/
def Member.MayLogIn (crypto : Crypto) (password : String) (m : Member) : Prop :=
  m.status = .active ∧ ∃ passwordHash, m.passwordHash = some passwordHash ∧
    verifyPassword crypto password passwordHash = true

/-- The login succeeds, with a token for such a membership of the email. -/
def LogsIn (crypto : Crypto) (w : World) (email password : String) (first : Nat) : Prop :=
  ∃ m ∈ w.members, m.email = email ∧ m.MayLogIn crypto password ∧
    login crypto first w email password
      = some (.loggedIn w.suspended m.id m.email m.name m.role m.merchantId)

section Logins

variable {crypto : Crypto} {w : World} {email password : String} {first : Nat} {m : Member}

/-- The rows that `login` selects. -/
def ofEmail (w : World) (email : String) : List Member :=
  w.members.rows.filter fun m => m.email == email

theorem mem_ofEmail : m ∈ ofEmail w email ↔ m ∈ w.members ∧ m.email = email := by
  unfold ofEmail
  rw [List.mem_filter, beq_iff_eq]
  exact Iff.rfl

/-- Any row may come first. -/
theorem exists_firstOf {rows : List Member} (hm : m ∈ rows) :
    ∃ first, firstOf rows first = some m := by
  obtain ⟨k, hk, heq⟩ := List.mem_iff_getElem.mp hm
  refine ⟨k, ?_⟩
  rw [firstOf, Nat.mod_eq_of_lt hk, List.getElem?_eq_getElem hk, heq]

/-- One of them does. -/
theorem firstOf_of_mem {rows : List Member} (hm : m ∈ rows) (first : Nat) :
    ∃ m', firstOf rows first = some m' := by
  have hlt : first % rows.length < rows.length :=
    Nat.mod_lt _ (List.length_pos_of_mem hm)
  exact ⟨rows[first % rows.length], List.getElem?_eq_getElem hlt⟩

/-- What the checks of the first row come to. -/
theorem checkLogin_cases (crypto : Crypto) (email password : String) (before : List Nat)
    (m : Member) :
    m.MayLogIn crypto password ∧ checkLogin crypto email password before (some m)
      = .loggingIn email password before (some m) ∨
    ¬ m.MayLogIn crypto password ∧
      (checkLogin crypto email password before (some m) = .failed ∨
        ∃ status message,
          checkLogin crypto email password before (some m) = .threw status message) := by
  cases hhash : m.passwordHash with
  | none =>
    refine .inr ⟨?_, .inl (by simp only [checkLogin, hhash])⟩
    rintro ⟨-, passwordHash, heq, -⟩
    cases hhash.symm.trans heq
  | some passwordHash =>
    simp only [checkLogin, hhash]
    cases hverify : verifyPassword crypto password passwordHash with
    | false =>
      refine .inr ⟨?_, .inr ⟨_, _, if_pos rfl⟩⟩
      rintro ⟨-, passwordHash', heq, hyes⟩
      cases hhash.symm.trans heq
      cases hverify.symm.trans hyes
    | true =>
      cases hstatus : m.status with
      | active => exact .inl ⟨⟨hstatus, passwordHash, hhash, hverify⟩, rfl⟩
      | pending =>
        refine .inr ⟨?_, .inr ⟨403, "Invite not yet accepted", rfl⟩⟩
        rintro ⟨hactive, -⟩
        cases hstatus.symm.trans hactive
      | suspended =>
        refine .inr ⟨?_, .inr ⟨403, "Account suspended", rfl⟩⟩
        rintro ⟨hactive, -⟩
        cases hstatus.symm.trans hactive

/-- The call after its `SELECT`, and after its `UPDATE` if there is one. -/
theorem login_eq (hfirst : firstOf (ofEmail w email) first = some m) :
    login crypto first w email password
      = match (program crypto).exec [] (.exec first "") w
          (checkLogin crypto email password w.suspended (some m)) with
        | some (_, c) => some c
        | none => some (checkLogin crypto email password w.suspended (some m)) := by
  rw [← hfirst]
  rfl

/-- **A login succeeds** if and only if the first row is an active membership for which the
password is valid. -/
theorem logsIn_iff (hfirst : firstOf (ofEmail w email) first = some m) :
    LogsIn crypto w email password first ↔ m.MayLogIn crypto password := by
  rcases checkLogin_cases crypto email password w.suspended m with ⟨hmay, hcheck⟩ | ⟨hnot, hcheck⟩
  · refine iff_of_true ?_ hmay
    obtain ⟨hm, hemail⟩ := mem_ofEmail.mp (firstOf_mem hfirst)
    refine ⟨m, hm, hemail, hmay, ?_⟩
    rw [login_eq hfirst, hcheck]
    rfl
  · refine iff_of_false ?_ hnot
    rintro ⟨m', -, -, -, hlogin⟩
    rw [login_eq hfirst] at hlogin
    rcases hcheck with hcheck | ⟨status, message, hcheck⟩
    · rw [hcheck] at hlogin
      cases hlogin
    · rw [hcheck] at hlogin
      cases hlogin

/-- A password is valid for the active members who have given it. -/
theorem mayLogIn_iff {s : Store} (hexact : Exact crypto) (h : Recorded crypto s)
    (hm : m ∈ s.world.members) :
    m.MayLogIn crypto password ↔ m.status = .active ∧ s.passwords m.id = some password := by
  have hrow : HasPassword crypto m (s.passwords m.id) := h.rows m hm
  cases hgiven : s.passwords m.id with
  | none =>
    rw [hgiven] at hrow
    refine iff_of_false ?_ ?_
    · rintro ⟨hactive, -⟩
      exact hrow.2 hactive
    · rintro ⟨hactive, -⟩
      exact hrow.2 hactive
  | some given =>
    rw [hgiven] at hrow
    obtain ⟨salt, hsalt, hhash⟩ := hrow
    rw [Option.some.injEq]
    constructor
    · rintro ⟨hactive, passwordHash, heq, hverify⟩
      cases hhash.symm.trans heq
      exact ⟨hactive, ((hexact given password salt hsalt).mp hverify).symm⟩
    · rintro ⟨hactive, rfl⟩
      exact ⟨hactive, _, hhash, (hexact given given salt hsalt).mpr rfl⟩

end Logins

/-- **Who can log in**: an active member has given a password, and a login with it succeeds
whatever the order of the rows is if and only if all memberships of the email are active, with
this password. -/
theorem login_iff {crypto : Crypto} (hexact : Exact crypto) {n : Nat}
    {as : List (Program.Label Input Event n)} {t : Program.Sys Store Call n}
    (hr : ((passwordProgram crypto).interleave n).run (start n) as = some t) {m : Member}
    (hm : m ∈ t.db.world.members) (hactive : m.status = .active) :
    ∃ password, t.db.passwords m.id = some password ∧
      ((∀ first, LogsIn crypto t.db.world m.email password first) ↔
        ∀ m' ∈ t.db.world.members, m'.email = m.email →
          m'.status = .active ∧ t.db.passwords m'.id = some password) := by
  have hrecorded := recorded_run hr
  have hrow : HasPassword crypto m (t.db.passwords m.id) := hrecorded.rows m hm
  cases hgiven : t.db.passwords m.id with
  | none =>
    rw [hgiven] at hrow
    exact absurd hactive hrow.2
  | some password =>
    refine ⟨password, rfl, ?_⟩
    constructor
    · intro hlogs m' hm' hemail
      -- in some order, this row comes first
      obtain ⟨first, hfirst⟩ := exists_firstOf (mem_ofEmail.mpr ⟨hm', hemail⟩)
      exact (mayLogIn_iff hexact hrecorded hm').mp ((logsIn_iff hfirst).mp (hlogs first))
    · intro hall first
      obtain ⟨m', hfirst⟩ := firstOf_of_mem (mem_ofEmail.mpr ⟨hm, rfl⟩) first
      obtain ⟨hm', hemail⟩ := mem_ofEmail.mp (firstOf_mem hfirst)
      exact (logsIn_iff hfirst).mpr
        ((mayLogIn_iff hexact hrecorded hm').mpr (hall m' hm' hemail))

/-! ## One email, two merchants -/

/-- A text in hexadecimal digits that determines the characters. -/
def unary (cs : List Char) : List Char :=
  cs.flatMap fun c => List.replicate c.toNat 'a' ++ ['b']

theorem replicate_injective {j k : Nat} {xs ys : List Char}
    (h : List.replicate j 'a' ++ 'b' :: xs = List.replicate k 'a' ++ 'b' :: ys) :
    j = k ∧ xs = ys := by
  induction j generalizing k with
  | zero =>
    cases k with
    | zero => exact ⟨rfl, (List.cons.inj h).2⟩
    | succ k => cases (List.cons.inj h).1
  | succ j ih =>
    cases k with
    | zero => cases (List.cons.inj h).1
    | succ k =>
      obtain ⟨heq, hrest⟩ := ih (List.cons.inj h).2
      exact ⟨congrArg Nat.succ heq, hrest⟩

theorem unary_injective : Function.Injective unary := by
  intro cs
  induction cs with
  | nil =>
    intro ds h
    cases ds with
    | nil => rfl
    | cons d ds => simp [unary] at h
  | cons c cs ih =>
    intro ds h
    cases ds with
    | nil => simp [unary] at h
    | cons d ds =>
      have hcons : ∀ (x : Char) (xs : List Char),
          unary (x :: xs) = List.replicate x.toNat 'a' ++ 'b' :: unary xs := by
        intro x xs
        simp [unary]
      rw [hcons, hcons] at h
      obtain ⟨hcode, hrest⟩ := replicate_injective h
      rw [Char.toNat_inj.mp hcode, ih hrest]

theorem isHex_unary (cs : List Char) : isHex (String.ofList (unary cs)) = true := by
  simp only [isHex, String.toList_ofList, List.all_eq_true, unary, List.mem_flatMap,
    List.mem_append, List.mem_replicate, List.mem_singleton]
  rintro x ⟨c, -, ⟨-, rfl⟩ | rfl⟩
  · decide
  · decide

/-- Functions without collisions, in hexadecimal digits. -/
def unaryCrypto : Crypto where
  sha256 := plainCrypto.sha256
  scrypt password _ _ _ _ := String.ofList (unary password.toList)

theorem exact_unaryCrypto : Exact unaryCrypto := by
  refine exact_of_injective (fun password _ => isHex_unary password.toList) fun _ a b h => ?_
  exact String.toList_inj.mp (unary_injective (String.ofList_injective h))

/-- A second merchant invites the same person: member 1, with the token "bb". -/
def invitesToo : List (Program.Label Input Event 2) :=
  [.call 1 (.invite 2 .owner "dev@company.com" "Alice Dev" .viewer), .call 1 (.exec 0 "bb"),
    .call 1 (.exec 0 "bb")]

/-- The one membership of an email, and its password. -/
def OneMembership (s : Store) (email password : String) : Prop :=
  ∃ m ∈ s.world.members.rows, m.email = email ∧ m.status = .active ∧
    s.passwords m.id = some password ∧ ∀ m' ∈ s.world.members.rows, m'.email = email →
      m'.status = .active ∧ s.passwords m'.id = some password

instance decidableOneMembership (s : Store) (email password : String) :
    Decidable (OneMembership s email password) :=
  inferInstanceAs (Decidable (∃ m ∈ s.world.members.rows, _))

/-- A member of one merchant logs in. -/
theorem logs_in_alone :
    ∃ t, ((passwordProgram unaryCrypto).interleave 2).run (start 2)
        (invites ++ accepts 0 ++ [next 0]) = some t ∧
      ∀ first, LogsIn unaryCrypto t.db.world "dev@company.com" "a long password" first := by
  obtain ⟨t, hr, m, hm, hemail, hactive, hgiven, hall⟩ :=
    ((passwordProgram unaryCrypto).interleave 2).exists_of_leadsTo
      (fun t => OneMembership t.db "dev@company.com" "a long password") (start 2)
      (invites ++ accepts 0 ++ [next 0]) (by decide +kernel)
  obtain ⟨password, hpassword, hiff⟩ := login_iff exact_unaryCrypto hr hm hactive
  cases hgiven.symm.trans hpassword
  rw [hemail] at hiff
  exact ⟨t, hr, hiff.mpr hall⟩

/-- **An invitation that locks a member out**: the member has accepted the invite of one merchant,
and another one has invited the same email. If its row comes first, the hash that is null makes
the login with the right password fail. -/
theorem locked_out_by_invite :
    Exact unaryCrypto ∧ ∃ t, ((passwordProgram unaryCrypto).interleave 2).run (start 2)
        (invites ++ accepts 0 ++ [next 0] ++ invitesToo) = some t ∧
      (∃ m ∈ t.db.world.members.rows, m.email = "dev@company.com" ∧ m.status = .active ∧
        t.db.passwords m.id = some "a long password") ∧
      login unaryCrypto 1 t.db.world "dev@company.com" "a long password" = some .failed :=
  ⟨exact_unaryCrypto, ((passwordProgram unaryCrypto).interleave 2).exists_of_leadsTo
    (fun t => (∃ m ∈ t.db.world.members.rows, m.email = "dev@company.com" ∧ m.status = .active ∧
        t.db.passwords m.id = some "a long password") ∧
      login unaryCrypto 1 t.db.world "dev@company.com" "a long password" = some .failed)
    (start 2) (invites ++ accepts 0 ++ [next 0] ++ invitesToo) (by decide +kernel)⟩

end Stargate.TeamMembers
