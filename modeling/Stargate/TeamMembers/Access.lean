import Stargate.TeamMembers.Logins

/-!
# Who may change a team (`TeamMembersController`, `RolesGuard`, `JwtStrategy`)

The handlers that change a team take an access token. Its role is that of the member when it
logged in; the guard reads the token and not the table. Merchants get tokens of owners, and no
member is one.

- `Route`, `RolesGuard.canActivate`: the handlers, and the roles that they take;
- `site`: requests, statements of their calls in any order, and tokens that are handed out;
- `Statement`: what one statement does, with what its call has read;
- `Secured`: the invariant: where tokens come from, and which request backs a call;
- `member_changes_granted`: a team changes only by a request with a token of its merchant, of an
  owner or of an administrator, that had not expired;
- `teams_rooted`: a team begins with a token of its merchant.
-/

namespace Stargate.TeamMembers

open Base

/-! ## Requests -/

/-- What the guards read of an access token. `exp` is in seconds. -/
structure AccessToken where
  sub : Nat
  role : Role
  merchantId : Nat
  exp : Nat
  deriving DecidableEq

/-- `jwt.signAsync({ sub, role, merchantId })` at a time in milliseconds. -/
def sign (ttl now sub : Nat) (role : Role) (merchantId : Nat) : AccessToken :=
  ⟨sub, role, merchantId, now / 1000 + ttl⟩

/-- The handlers of `TeamMembersController` that take a token and change the team. -/
inductive Route where
  | invite (email name : String) (role : Role)
  | updateRole (memberId : Nat) (role : Role)
  | suspend (memberId : Nat)
  | remove (memberId : Nat)
  deriving DecidableEq

/-- `@Roles(...)`. -/
def Route.requiredRoles : Route → List Role
  | .invite .. | .updateRole .. | .suspend _ => [.owner, .admin]
  | .remove _ => [.owner]

/-- `InviteMemberDto` and `UpdateMemberRoleDto`: `role` is an administrator, a developer or a
viewer. -/
def Route.valid : Route → Bool
  | .invite _ _ role | .updateRole _ role => role != .owner
  | .suspend _ | .remove _ => true

/-- The call of the service. -/
def Route.input (user : AccessToken) : Route → Input
  | .invite email name role => .invite user.merchantId user.role email name role
  | .updateRole memberId role => .updateRole user.merchantId memberId user.role role
  | .suspend memberId => .suspend user.merchantId memberId user.role
  | .remove memberId => .remove user.merchantId memberId user.role

/-- `RolesGuard.canActivate(context)`. -/
def RolesGuard.canActivate (requiredRoles : List Role) (user : AccessToken) : Bool :=
  requiredRoles.isEmpty || requiredRoles.any (· == user.role)

/-- `jwt.verify`: the time of the server has not come to `exp`. -/
def AccessToken.live (now : Nat) (tok : AccessToken) : Bool := now / 1000 < tok.exp

/-! ## The site -/

/-- The calls of the service, and the tokens that were handed out. -/
structure Site (n : Nat) where
  sys : Program.Sys World Call n
  issued : List AccessToken

def Site.members {n : Nat} (s : Site n) : Table Member := s.sys.db.members

def Site.now {n : Nat} (s : Site n) : Nat := s.sys.db.now

inductive SiteStep (n : Nat) where
  /-- A request with a token that was handed out: nobody else can sign one. -/
  | request (k : Fin n) (tok : AccessToken) (route : Route)
  | acceptInvite (k : Fin n) (token password : String)
  | login (k : Fin n) (email password : String)
  | statement (k : Fin n) (first : Nat) (random : String)
  | fail (k : Fin n)
  /-- `AuthService` signs a token for a merchant, whose role is `'owner'`. -/
  | merchantToken (merchantId : Nat)
  | env (e : Event)

/-- The token of a member whose login is complete. -/
def Call.token (ttl now : Nat) : Call → List AccessToken
  | .loggedIn _ id _ _ role merchantId => [sign ttl now id role merchantId]
  | _ => []

section Site

variable (crypto : Crypto) (ttl : Nat) (n : Nat)

/-- A step of the calls. -/
def Site.move {n : Nat} (s : Site n) (l : Program.Label Input Event n) : Option (Site n) :=
  (((program crypto).interleave n).step s.sys l).map fun sys => { s with sys }

/-- Requests that the guards reject leave nothing behind. -/
def site : Lts (Site n) (SiteStep n) where
  step s
    | .request k tok route =>
      if tok ∈ s.issued ∧ tok.live s.now = true ∧
          RolesGuard.canActivate route.requiredRoles tok = true ∧ route.valid = true then
        s.move crypto (.call k (route.input tok))
      else none
    | .acceptInvite k token password => s.move crypto (.call k (.acceptInvite token password))
    | .login k email password => s.move crypto (.call k (.login email password))
    | .statement k first random =>
      (s.move crypto (.call k (.exec first random))).map fun s' =>
        { s' with issued := s.issued ++ (s'.sys.calls k).token ttl s.now }
    | .fail k => s.move crypto (.call k .throw)
    | .merchantToken merchantId =>
      some { s with issued := s.issued ++ [sign ttl s.now merchantId .owner merchantId] }
    | .env e => s.move crypto (.env e)

/-- Nobody has been invited, and no token was handed out. -/
def siteStart : Site n := ⟨idle n, []⟩

end Site

/-! ## Statements -/

/-- What a statement of a call does, by where the call stands. -/
inductive Statement (crypto : Crypto) (w : World) : Call → World → Call → Prop
  /-- The call ends without a write. -/
  | ended {c c' : Call} (hends : (∃ status message, c' = .threw status message) ∨ c' = .failed) :
      Statement crypto w c w c'
  | emailFree {merchantId : Nat} {email name : String} {role : Role} :
      Statement crypto w (.inviting merchantId email name role false) w
        (.inviting merchantId email name role true)
  | invited {merchantId : Nat} {email name rawToken : String} {role : Role} {answer : Answer}
      {members : Table Member} (hrole : role ≠ .owner)
      (hinsert : w.members.insert? (newMember w.nextId w.now merchantId email name role
        (crypto.sha256 rawToken)) = some members) :
      Statement crypto w (.inviting merchantId email name role true)
        { w with members, nextId := w.nextId + 1, tokens := w.tokens ++ [rawToken] }
        (.returned answer)
  | inviteFound {token password : String} {memberId : Nat} :
      Statement crypto w (.accepting token password none) w
        (.accepting token password (some memberId))
  | accepted {token password passwordHash : String} {memberId : Nat} {answer : Answer} :
      Statement crypto w (.accepting token password (some memberId))
        { w with
          members := w.members.modify (fun m => m.id == memberId)
            (Member.accept passwordHash w.now) fun _ => rfl
          redeemed := w.redeemed ++ [token] }
        (.returned answer)
  | passwordRight {email password : String} {before : List Nat} {m : Member}
      (hm : m ∈ w.members) (hactive : m.status = .active) :
      Statement crypto w (.loggingIn email password before none) w
        (.loggingIn email password before (some m))
  | loggedIn {email password : String} {before : List Nat} {m : Member} :
      Statement crypto w (.loggingIn email password before (some m))
        { w with
          members := w.members.modify (fun x => x.id == m.id) (Member.touch w.now) fun _ => rfl }
        (.loggedIn before m.id m.email m.name m.role m.merchantId)
  | memberFound {merchantId memberId : Nat} {role : Role} {m : Member} (hm : m ∈ w.members)
      (hid : m.id = memberId) (hmerchant : m.merchantId = merchantId) :
      Statement crypto w (.updatingRole merchantId memberId role false) w
        (.updatingRole merchantId memberId role true)
  | roleSet {merchantId memberId : Nat} {role : Role} {answer : Answer} (hrole : role ≠ .owner) :
      Statement crypto w (.updatingRole merchantId memberId role true)
        { w with
          members := w.members.modify (fun m => m.id == memberId) (Member.setRole role w.now)
            fun _ => rfl }
        (.returned answer)
  | suspended {merchantId memberId : Nat} {answer : Answer} :
      Statement crypto w (.suspending merchantId memberId)
        { w with
          members := w.members.modify (fun m => m.id == memberId && m.merchantId == merchantId)
            (Member.suspend w.now) fun _ => rfl
          suspended := w.suspended ++ [memberId] }
        (.returned answer)
  | removed {merchantId memberId : Nat} {answer : Answer} :
      Statement crypto w (.removing merchantId memberId)
        { w with
          members := w.members.delete fun m => m.id == memberId && m.merchantId == merchantId }
        (.returned answer)

section Statements

variable {crypto : Crypto} {w w' : World} {c c' : Call}

theorem statement_checkInvite {token password : String} {m : Option Member} :
    Statement crypto w (.accepting token password none) w (checkInvite w.now token password m) := by
  cases m with
  | none => exact .ended (.inl ⟨_, _, rfl⟩)
  | some m =>
    simp only [checkInvite]
    split
    · exact .ended (.inl ⟨_, _, rfl⟩)
    · split
      · exact .ended (.inl ⟨_, _, rfl⟩)
      · exact .inviteFound

theorem statement_checkLogin {email password : String} {before : List Nat} {m : Option Member}
    (hm : ∀ x, m = some x → x ∈ w.members) :
    Statement crypto w (.loggingIn email password before none) w
      (checkLogin crypto email password before m) := by
  cases m with
  | none => exact .ended (.inl ⟨_, _, rfl⟩)
  | some m =>
    simp only [checkLogin]
    split
    · exact .ended (.inr rfl)
    · split
      · exact .ended (.inl ⟨_, _, rfl⟩)
      · split
        · exact .ended (.inl ⟨_, _, rfl⟩)
        · next hsuspended =>
          split
          · exact .ended (.inl ⟨_, _, rfl⟩)
          · next hpending =>
            refine .passwordRight (hm m rfl) ?_
            cases hstatus : m.status with
            | pending => exact absurd hstatus hpending
            | active => rfl
            | suspended => exact absurd hstatus hsuspended

/-- **Every statement is one of these.** -/
theorem statement_of_exec {first : Nat} {random : String}
    (h : c.exec crypto first random w = some (w', c')) : Statement crypto w c w' c' := by
  cases c with
  | inviting merchantId email name role checked =>
    cases checked with
    | false =>
      simp only [Call.exec] at h
      split at h
      · cases h
        exact .ended (.inl ⟨_, _, rfl⟩)
      · cases h
        exact .emailFree
    | true =>
      simp only [Call.exec, insertMember] at h
      split at h
      · cases h
      · split at h
        · cases h
          exact .ended (.inr rfl)
        · next hrole =>
          split at h
          · cases h
            exact .ended (.inr rfl)
          · next hinsert =>
            cases h
            exact .invited hrole hinsert
  | accepting token password memberId =>
    cases memberId with
    | none =>
      cases h
      exact statement_checkInvite
    | some memberId =>
      cases h
      exact .accepted
  | loggingIn email password before member =>
    cases member with
    | none =>
      cases h
      exact statement_checkLogin fun x hx => (List.mem_filter.mp (firstOf_mem hx)).1
    | some member =>
      cases h
      exact .loggedIn
  | updatingRole merchantId memberId role found =>
    cases found with
    | false =>
      simp only [Call.exec] at h
      split at h
      · next hany =>
        obtain ⟨m, hm, heq⟩ := List.any_eq_true.mp hany
        obtain ⟨hid, hmerchant⟩ := Bool.and_eq_true_iff.mp heq
        cases h
        exact .memberFound hm (beq_iff_eq.mp hid) (beq_iff_eq.mp hmerchant)
      · cases h
        exact .ended (.inl ⟨_, _, rfl⟩)
    | true =>
      simp only [Call.exec] at h
      split at h
      · cases h
        exact .ended (.inr rfl)
      · next hrole =>
        cases h
        exact .roleSet hrole
  | suspending merchantId memberId =>
    simp only [Call.exec] at h
    split at h
    · cases h
      exact .suspended
    · cases h
      exact .ended (.inl ⟨_, _, rfl⟩)
  | removing merchantId memberId =>
    simp only [Call.exec] at h
    split at h
    · cases h
      exact .removed
    · cases h
      exact .ended (.inl ⟨_, _, rfl⟩)
  | _ => cases h

end Statements

/-! ## Changes of a team -/

/-- A change of the team of a merchant, with the request that asks for it. -/
inductive Change (ms ms' : Table Member) : Nat → Route → Prop
  | added {m : Member} (hm : m ∈ ms') (hnew : ∀ x ∈ ms, x.id ≠ m.id) :
      Change ms ms' m.merchantId (.invite m.email m.name m.role)
  | roleChanged {m m' : Member} (hm : m ∈ ms) (hm' : m' ∈ ms') (hid : m'.id = m.id)
      (hrole : m'.role ≠ m.role) : Change ms ms' m.merchantId (.updateRole m.id m'.role)
  | suspended {m m' : Member} (hm : m ∈ ms) (hm' : m' ∈ ms') (hid : m'.id = m.id)
      (hbefore : m.status ≠ .suspended) (hafter : m'.status = .suspended) :
      Change ms ms' m.merchantId (.suspend m.id)
  | removed {m : Member} (hm : m ∈ ms) (hgone : ∀ x ∈ ms', x.id ≠ m.id) :
      Change ms ms' m.merchantId (.remove m.id)

/-- The request that a call of the service answers, and its merchant. -/
def Call.asked : Call → Option (Nat × Route)
  | .inviting merchantId email name role _ => some (merchantId, .invite email name role)
  | .updatingRole merchantId memberId role _ => some (merchantId, .updateRole memberId role)
  | .suspending merchantId memberId => some (merchantId, .suspend memberId)
  | .removing merchantId memberId => some (merchantId, .remove memberId)
  | _ => none

/-- The member that `updateRole` has found is one of the merchant. -/
def Call.Found (w : World) (c : Call) : Prop :=
  ∀ merchantId memberId role, c = .updatingRole merchantId memberId role true →
    memberId < w.nextId ∧ ∀ m ∈ w.members, m.id = memberId → m.merchantId = merchantId

section Changes

variable {crypto : Crypto} {w w' : World} {c c' : Call} {ms : Table Member} {merchantId : Nat}
  {route : Route}

theorem eq_of_id {m m' : Member} (hm : m ∈ ms) (hm' : m' ∈ ms) (hid : m'.id = m.id) : m' = m :=
  Table.eq_of_conflict hm' hm (.inl hid)

theorem not_change_self (h : Change ms ms merchantId route) : False := by
  cases h with
  | added hm hnew => exact hnew _ hm rfl
  | roleChanged hm hm' hid hrole => exact hrole (by rw [eq_of_id hm hm' hid])
  | suspended hm hm' hid hbefore hafter => exact hbefore (by rw [← eq_of_id hm hm' hid, hafter])
  | removed hm hgone => exact hgone _ hm rfl

/-- An `UPDATE` changes roles and statuses. -/
theorem change_modify {p : Member → Bool} {f : Member → Member}
    (hf : ∀ m, Keyed.key (f m) = Keyed.key m) (h : Change ms (ms.modify p f hf) merchantId route) :
    ∃ m ∈ ms, p m = true ∧ m.merchantId = merchantId ∧
      ((f m).role ≠ m.role ∧ route = .updateRole m.id (f m).role ∨
        m.status ≠ .suspended ∧ (f m).status = .suspended ∧ route = .suspend m.id) := by
  have hid : ∀ m, (f m).id = m.id := fun m => congrArg Prod.fst (hf m)
  cases h with
  | added hm hnew =>
    rcases Table.of_mem_modify hm with ⟨hm, -⟩ | ⟨m₀, hm₀, -, rfl⟩
    · exact absurd rfl (hnew _ hm)
    · exact absurd (hid m₀).symm (hnew m₀ hm₀)
  | roleChanged hm hm' hsame hrole =>
    rcases Table.of_mem_modify hm' with ⟨hm', -⟩ | ⟨m₀, hm₀, hp, rfl⟩
    · exact absurd (by rw [eq_of_id hm hm' hsame]) hrole
    · obtain rfl := eq_of_id hm hm₀ ((hid m₀).symm.trans hsame)
      exact ⟨m₀, hm, hp, rfl, .inl ⟨hrole, rfl⟩⟩
  | suspended hm hm' hsame hbefore hafter =>
    rcases Table.of_mem_modify hm' with ⟨hm', -⟩ | ⟨m₀, hm₀, hp, rfl⟩
    · exact absurd (by rw [← eq_of_id hm hm' hsame, hafter]) hbefore
    · obtain rfl := eq_of_id hm hm₀ ((hid m₀).symm.trans hsame)
      exact ⟨m₀, hm, hp, rfl, .inr ⟨hbefore, hafter, rfl⟩⟩
  | @removed m hm hgone =>
    by_cases hp : p m = true
    · exact absurd (hid m) (hgone _ ((Table.mem_modify hf).mpr ⟨m, hm, if_pos hp⟩))
    · exact absurd rfl (hgone _ ((Table.mem_modify hf).mpr ⟨m, hm, if_neg hp⟩))

theorem change_delete {p : Member → Bool} (h : Change ms (ms.delete p) merchantId route) :
    ∃ m ∈ ms, p m = true ∧ m.merchantId = merchantId ∧ route = .remove m.id := by
  cases h with
  | added hm hnew => exact absurd rfl (hnew _ (Table.mem_delete.mp hm).1)
  | roleChanged hm hm' hid hrole =>
    exact absurd (by rw [eq_of_id hm (Table.mem_delete.mp hm').1 hid]) hrole
  | suspended hm hm' hid hbefore hafter =>
    exact absurd (by rw [← eq_of_id hm (Table.mem_delete.mp hm').1 hid, hafter]) hbefore
  | @removed m hm hgone =>
    refine ⟨m, hm, ?_, rfl, rfl⟩
    by_contra hp
    exact hgone m (Table.mem_delete.mpr ⟨hm, Bool.eq_false_iff.mpr hp⟩) rfl

/-- An `INSERT` adds its row. -/
theorem change_insert {row : Member} {ms' : Table Member} (hinsert : ms.insert? row = some ms')
    (hfresh : ∀ m ∈ ms, m.id ≠ row.id) (h : Change ms ms' merchantId route) :
    merchantId = row.merchantId ∧ route = .invite row.email row.name row.role := by
  have hmem := Table.mem_of_insert? hinsert
  cases h with
  | added hm hnew =>
    rcases (hmem _).mp hm with hm | rfl
    · exact absurd rfl (hnew _ hm)
    · exact ⟨rfl, rfl⟩
  | roleChanged hm hm' hid hrole =>
    rcases (hmem _).mp hm' with hm' | rfl
    · exact absurd (by rw [eq_of_id hm hm' hid]) hrole
    · exact absurd hid.symm (hfresh _ hm)
  | suspended hm hm' hid hbefore hafter =>
    rcases (hmem _).mp hm' with hm' | rfl
    · exact absurd (by rw [← eq_of_id hm hm' hid, hafter]) hbefore
    · exact absurd hid.symm (hfresh _ hm)
  | removed hm hgone => exact absurd rfl (hgone _ ((hmem _).mpr (.inl hm)))

/-- **A statement changes what its call was asked to.** -/
theorem change_of_statement (h : Statement crypto w c w' c')
    (hfresh : ∀ m ∈ w.members, m.id < w.nextId) (hfound : c.Found w)
    (hchange : Change w.members w'.members merchantId route) :
    c.asked = some (merchantId, route) := by
  cases h with
  | invited hrole hinsert =>
    obtain ⟨rfl, rfl⟩ := change_insert hinsert (fun m hm => (hfresh m hm).ne) hchange
    rfl
  | accepted =>
    obtain ⟨m, -, -, -, ⟨hrole, -⟩ | ⟨-, hstatus, -⟩⟩ :=
      change_modify (f := Member.accept _ w.now) (fun _ => rfl) hchange
    · exact absurd rfl hrole
    · cases hstatus
  | loggedIn =>
    obtain ⟨m, -, -, -, ⟨hrole, -⟩ | ⟨hbefore, hafter, -⟩⟩ :=
      change_modify (f := Member.touch w.now) (fun _ => rfl) hchange
    · exact absurd rfl hrole
    · exact absurd hafter hbefore
  | roleSet =>
    obtain ⟨m, hm, hid, rfl, ⟨-, rfl⟩ | ⟨hbefore, hafter, -⟩⟩ :=
      change_modify (f := Member.setRole _ w.now) (fun _ => rfl) hchange
    · obtain rfl := beq_iff_eq.mp hid
      rw [(hfound _ _ _ rfl).2 m hm rfl]
      rfl
    · exact absurd hafter hbefore
  | suspended =>
    obtain ⟨m, hm, hp, rfl, ⟨hrole, -⟩ | ⟨-, -, rfl⟩⟩ :=
      change_modify (f := Member.suspend w.now) (fun _ => rfl) hchange
    · exact absurd rfl hrole
    · obtain ⟨hid, hmerchant⟩ := Bool.and_eq_true_iff.mp hp
      rw [beq_iff_eq.mp hid, beq_iff_eq.mp hmerchant]
      rfl
  | removed =>
    obtain ⟨m, hm, hp, rfl, rfl⟩ := change_delete hchange
    obtain ⟨hid, hmerchant⟩ := Bool.and_eq_true_iff.mp hp
    rw [beq_iff_eq.mp hid, beq_iff_eq.mp hmerchant]
    rfl
  | _ => exact (not_change_self hchange).elim

end Changes

/-! ## What a run has behind it -/

section Secured

variable (crypto : Crypto) (ttl : Nat) {n : Nat}

/-- A request of the route is taken, with a token that is good for it. -/
def Taken (merchantId : Nat) (route : Route) (s : Site n) (a : SiteStep n) : Prop :=
  ∃ k tok, a = .request k tok route ∧ tok ∈ s.issued ∧ tok.live s.now = true ∧
    tok.merchantId = merchantId ∧ tok.role ∈ route.requiredRoles

/-- Where a token comes from: `AuthService` has signed it for a merchant, or a member has logged
in, who was active and had the role of the token when the login read its row. -/
inductive TokenOrigin (steps : List (SiteStep n)) (tok : AccessToken) : Prop
  | merchant (hsub : tok.sub = tok.merchantId) (hrole : tok.role = .owner)
      (hsigned : (site crypto ttl n).Did (fun s a => a = .merchantToken tok.merchantId ∧
        tok.exp = s.now / 1000 + ttl) (siteStart n) steps)
  | member (hrole : tok.role ≠ .owner)
      (hactive : (site crypto ttl n).Once (fun s => ∃ m ∈ s.members, m.id = tok.sub ∧
        m.merchantId = tok.merchantId ∧ m.role = tok.role ∧ m.status = .active)
        (siteStart n) steps)
      (hsigned : (site crypto ttl n).Once (fun s => tok.exp = s.now / 1000 + ttl)
        (siteStart n) steps)

/-- What a call has behind it. -/
structure Backed (steps : List (SiteStep n)) (w : World) (c : Call) : Prop where
  asked : ∀ merchantId route, c.asked = some (merchantId, route) →
    (site crypto ttl n).Did (Taken merchantId route) (siteStart n) steps ∧
      .merchantToken merchantId ∈ steps
  found : c.Found w
  passed : ∀ email password before m, c = .loggingIn email password before (some m) →
    m.role ≠ .owner ∧ .merchantToken m.merchantId ∈ steps ∧
      (site crypto ttl n).Once (fun s => m ∈ s.members ∧ m.status = .active) (siteStart n) steps

/-- What holds after the steps of a run. -/
structure Secured (steps : List (SiteStep n)) (s : Site n) : Prop where
  fresh : ∀ m ∈ s.members, m.id < s.sys.db.nextId
  employed : ∀ m ∈ s.members, m.role ≠ .owner
  rooted : ∀ m ∈ s.members, .merchantToken m.merchantId ∈ steps
  issued : ∀ tok ∈ s.issued, TokenOrigin crypto ttl steps tok ∧
    .merchantToken tok.merchantId ∈ steps
  backed : ∀ k, Backed crypto ttl steps s.sys.db (s.sys.calls k)

variable {crypto ttl}
variable {steps : List (SiteStep n)} {s s' : Site n} {w w' : World} {c c' : Call}

theorem TokenOrigin.append {tok : AccessToken} (h : TokenOrigin crypto ttl steps tok)
    (more : List (SiteStep n)) : TokenOrigin crypto ttl (steps ++ more) tok := by
  cases h with
  | merchant hsub hrole hsigned => exact .merchant hsub hrole (hsigned.append _ more)
  | member hrole hactive hsigned =>
    exact .member hrole (hactive.append _ more) (hsigned.append _ more)

/-- A call that is asked nothing and has found nobody. -/
theorem backed_of_none (hasked : c.asked = none)
    (hlogin : ∀ email password before m, c ≠ .loggingIn email password before (some m)) :
    Backed crypto ttl steps w c where
  asked _ _ h := absurd (hasked.symm.trans h) nofun
  found _ _ _ h := by
    rw [h] at hasked
    cases hasked
  passed email password before m h := absurd h (hlogin email password before m)

/-- A step keeps ids with their merchants, and new ids are fresh. -/
structure KeepsIds (w w' : World) : Prop where
  nextId : w.nextId ≤ w'.nextId
  rows : ∀ m ∈ w'.members,
    (∃ m₀ ∈ w.members, m₀.id = m.id ∧ m₀.merchantId = m.merchantId ∧
      (m.role = m₀.role ∨ m.role ≠ .owner)) ∨
    w.nextId = m.id ∧ m.id < w'.nextId ∧ m.role ≠ .owner

theorem keepsIds_of_subset (hnext : w'.nextId = w.nextId)
    (hrows : ∀ m ∈ w'.members, m ∈ w.members) : KeepsIds w w' where
  nextId := hnext.ge
  rows m hm := .inl ⟨m, hrows m hm, rfl, rfl, .inl rfl⟩

theorem keepsIds_modify {p : Member → Bool} {f : Member → Member} {redeemed : List String}
    {suspended : List Nat} (hf : ∀ m, Keyed.key (f m) = Keyed.key m)
    (hrole : ∀ m, (f m).role = m.role ∨ (f m).role ≠ .owner) :
    KeepsIds w { w with members := w.members.modify p f hf, redeemed, suspended } where
  nextId := Nat.le_refl _
  rows m hm := by
    have hm : m ∈ w.members.modify p f hf := hm
    rcases Table.of_mem_modify hm with ⟨hm, -⟩ | ⟨m₀, hm₀, -, rfl⟩
    · exact .inl ⟨m, hm, rfl, rfl, .inl rfl⟩
    · exact .inl ⟨m₀, hm₀, (congrArg Prod.fst (hf m₀)).symm,
        (congrArg (fun key => key.2.1) (hf m₀)).symm, hrole m₀⟩

theorem keepsIds_of_statement (h : Statement crypto w c w' c') : KeepsIds w w' := by
  cases h with
  | @invited merchantId email name rawToken role answer members hrole hinsert =>
    refine ⟨Nat.le_succ _, fun m hm => ?_⟩
    rcases (Table.mem_of_insert? hinsert m).mp hm with hm | rfl
    · exact .inl ⟨m, hm, rfl, rfl, .inl rfl⟩
    · exact .inr ⟨rfl, Nat.lt_succ_self _, hrole⟩
  | accepted => exact keepsIds_modify (f := Member.accept _ w.now) _ fun _ => .inl rfl
  | loggedIn => exact keepsIds_modify (f := Member.touch w.now) _ fun _ => .inl rfl
  | roleSet hrole => exact keepsIds_modify (f := Member.setRole _ w.now) _ fun _ => .inr hrole
  | suspended => exact keepsIds_modify (f := Member.suspend w.now) _ fun _ => .inl rfl
  | removed => exact keepsIds_of_subset rfl fun m hm => (Table.mem_delete.mp hm).1
  | _ => exact keepsIds_of_subset rfl fun _ hm => hm

theorem keepsIds_of_env {e : Event} (h : (program crypto).env e w = some w') : KeepsIds w w' := by
  obtain ⟨hrows, -, -, -, hnext⟩ := event_rows h
  exact keepsIds_of_subset hnext hrows

theorem Call.Found.keep (h : c.Found w) (hkeeps : KeepsIds w w') : c.Found w' := by
  intro merchantId memberId role hc
  obtain ⟨hlt, hmerchant⟩ := h merchantId memberId role hc
  refine ⟨hlt.trans_le hkeeps.nextId, fun m hm hid => ?_⟩
  rcases hkeeps.rows m hm with ⟨m₀, hm₀, hid₀, hmerchant₀, -⟩ | ⟨hid', -⟩
  · exact hmerchant₀ ▸ hmerchant m₀ hm₀ (hid₀.trans hid)
  · omega

/-- Calls that do not move. -/
theorem Backed.keep (h : Backed crypto ttl steps w c) (hkeeps : KeepsIds w w')
    (more : List (SiteStep n)) : Backed crypto ttl (steps ++ more) w' c where
  asked merchantId route hasked := by
    obtain ⟨hdid, hroot⟩ := h.asked merchantId route hasked
    exact ⟨hdid.append _ more, List.mem_append_left _ hroot⟩
  found := h.found.keep hkeeps
  passed email password before m hc := by
    obtain ⟨hrole, hroot, honce⟩ := h.passed email password before m hc
    exact ⟨hrole, List.mem_append_left _ hroot, honce.append _ more⟩

theorem Secured.keep (h : Secured crypto ttl steps s) (a : SiteStep n)
    {sys : Program.Sys World Call n} {issued : List AccessToken}
    (hkeeps : KeepsIds s.sys.db sys.db)
    (hnew : ∀ m ∈ sys.db.members, (∀ x ∈ s.members, x.id ≠ m.id) →
      .merchantToken m.merchantId ∈ steps)
    (hissued : ∀ tok ∈ issued, tok ∈ s.issued ∨ TokenOrigin crypto ttl (steps ++ [a]) tok ∧
      .merchantToken tok.merchantId ∈ steps ++ [a])
    (hbacked : ∀ k, Backed crypto ttl (steps ++ [a]) sys.db (sys.calls k)) :
    Secured crypto ttl (steps ++ [a]) ⟨sys, issued⟩ where
  fresh m hm := by
    rcases hkeeps.rows m hm with ⟨m₀, hm₀, hid, -⟩ | ⟨-, hlt, -⟩
    · exact hid ▸ (h.fresh m₀ hm₀).trans_le hkeeps.nextId
    · exact hlt
  employed m hm := by
    rcases hkeeps.rows m hm with ⟨m₀, hm₀, -, -, hrole | hrole⟩ | ⟨-, -, hrole⟩
    · exact hrole ▸ h.employed m₀ hm₀
    · exact hrole
    · exact hrole
  rooted m hm := by
    refine List.mem_append_left _ ?_
    rcases hkeeps.rows m hm with ⟨m₀, hm₀, -, hmerchant, -⟩ | ⟨hid, -⟩
    · exact hmerchant ▸ h.rooted m₀ hm₀
    · exact hnew m hm fun x hx => hid ▸ (h.fresh x hx).ne
  issued tok htok := by
    rcases hissued tok htok with hold | hnew
    · obtain ⟨horigin, hroot⟩ := h.issued tok hold
      exact ⟨horigin.append [a], List.mem_append_left _ hroot⟩
    · exact hnew
  backed := hbacked

/-- One call moves, and the table stays. -/
theorem Secured.start (h : Secured crypto ttl steps s) (a : SiteStep n) {k : Fin n} {c : Call}
    (hc : Backed crypto ttl (steps ++ [a]) s.sys.db c) :
    Secured crypto ttl (steps ++ [a])
      ⟨⟨s.sys.db, Function.update s.sys.calls k c⟩, s.issued⟩ := by
  have hkeeps : KeepsIds s.sys.db s.sys.db := keepsIds_of_subset rfl fun _ hm => hm
  refine h.keep a hkeeps (fun m hm hnew => absurd rfl (hnew m hm)) (fun tok htok => .inl htok) ?_
  exact forall_update (P := fun _ c => Backed crypto ttl (steps ++ [a]) s.sys.db c) hc
    fun j _ => (h.backed j).keep hkeeps [a]

theorem move_call {k : Fin n} {i : Input} (h : s.move crypto (.call k i) = some s') :
    ∃ db c, (program crypto).exec (s.sys.others k) i s.sys.db (s.sys.calls k) = some (db, c) ∧
      s' = ⟨⟨db, Function.update s.sys.calls k c⟩, s.issued⟩ := by
  obtain ⟨sys, hsys, rfl⟩ := Option.map_eq_some_iff.mp h
  obtain ⟨db, c, hexec, rfl⟩ := (program crypto).step_call.mp hsys
  exact ⟨db, c, hexec, rfl⟩

theorem mem_requiredRoles {tok : AccessToken} {route : Route}
    (h : RolesGuard.canActivate route.requiredRoles tok = true) :
    tok.role ∈ route.requiredRoles := by
  have hnonempty : route.requiredRoles.isEmpty = false := by cases route <;> rfl
  rw [RolesGuard.canActivate, hnonempty, Bool.false_or] at h
  obtain ⟨role, hmem, heq⟩ := List.any_eq_true.mp h
  rwa [beq_iff_eq.mp heq] at hmem

/-- The call of a request is asked what the request says. -/
theorem start_route {tok : AccessToken} {route : Route}
    (h : (route.input tok).start w = some c) :
    (∃ status message, c = .threw status message) ∨
      c.asked = some (tok.merchantId, route) ∧ c.Found w := by
  cases route with
  | remove memberId =>
    simp only [Route.input, Input.start] at h
    split at h
    · cases h
      exact .inl ⟨_, _, rfl⟩
    · cases h
      exact .inr ⟨rfl, fun _ _ _ heq => by cases heq⟩
  | _ =>
    simp only [Route.input, Input.start] at h
    split at h
    · cases h
      exact .inl ⟨_, _, rfl⟩
    · cases h
      exact .inr ⟨rfl, fun _ _ _ heq => by cases heq⟩

theorem exec_start {others : List Call} {i : Input} (hi : i.isExec = false) (hthrow : i ≠ .throw)
    (h : (program crypto).exec others i w c = some (w', c')) :
    w' = w ∧ i.start w = some c' := by
  refine ⟨world_of_start h hi, ?_⟩
  cases i with
  | exec first random => cases hi
  | throw => exact absurd rfl hthrow
  | _ =>
    simp only [program] at h
    split at h
    · obtain ⟨c₁, hstart, heq⟩ := Option.map_eq_some_iff.mp h
      cases heq
      exact hstart
    · cases h

/-- What a statement leaves of its call. -/
theorem backed_of_statement (h : Statement crypto w c w' c')
    (hrun : (site crypto ttl n).run (siteStart n) steps = some s) (hsecured : Secured crypto ttl steps s)
    (hw : s.sys.db = w) (hc : Backed crypto ttl steps w c) : Backed crypto ttl steps w' c' := by
  subst hw
  cases h with
  | ended hends =>
    rcases hends with ⟨status, message, rfl⟩ | rfl
    · exact backed_of_none rfl nofun
    · exact backed_of_none rfl nofun
  | emailFree => exact ⟨fun mid route hasked => hc.asked mid route hasked, nofun, nofun⟩
  | passwordRight hm hactive =>
    refine ⟨nofun, nofun, fun email' password' before' m' heq => ?_⟩
    cases heq
    exact ⟨hsecured.employed _ hm, hsecured.rooted _ hm,
      (site crypto ttl n).once_now hrun ⟨hm, hactive⟩⟩
  | @memberFound merchantId memberId role m hm hid hmerchant =>
    refine ⟨fun mid route hasked => hc.asked mid route hasked, ?_, nofun⟩
    rintro _ _ _ ⟨⟩
    refine ⟨hid ▸ hsecured.fresh m hm, fun m' hm' hid' => ?_⟩
    rw [eq_of_id hm hm' (hid'.trans hid.symm), hmerchant]
  | _ => exact backed_of_none rfl nofun

theorem token_of_statement {now : Nat} {tok : AccessToken} (h : Statement crypto w c w' c')
    (htok : tok ∈ c'.token ttl now) :
    ∃ email password before m, c = .loggingIn email password before (some m) ∧
      tok = sign ttl now m.id m.role m.merchantId := by
  cases h with
  | loggedIn => exact ⟨_, _, _, _, rfl, List.mem_singleton.mp htok⟩
  | ended hends =>
    rcases hends with ⟨status, message, rfl⟩ | rfl
    · cases htok
    · cases htok
  | _ => cases htok

theorem secured_statement {k : Fin n} {first : Nat} {random : String}
    (hrun : (site crypto ttl n).run (siteStart n) steps = some s)
    (h : Secured crypto ttl steps s)
    (hstep : (site crypto ttl n).step s (.statement k first random) = some s') :
    Secured crypto ttl (steps ++ [.statement k first random]) s' := by
  obtain ⟨s₁, hmove, rfl⟩ := Option.map_eq_some_iff.mp hstep
  obtain ⟨db, c, hexec, rfl⟩ := move_call hmove
  have hstatement : Statement crypto s.sys.db (s.sys.calls k) db c := statement_of_exec hexec
  have hkeeps := keepsIds_of_statement hstatement
  have hk := h.backed k
  refine h.keep _ hkeeps (fun m hm hnew => ?_) (fun tok htok => ?_) ?_
  · have hchange := Change.added hm hnew
    exact (hk.asked _ _ (change_of_statement hstatement h.fresh hk.found hchange)).2
  · rcases List.mem_append.mp htok with hold | hnew
    · exact .inl hold
    · simp only [Function.update_self] at hnew
      obtain ⟨email, password, before, m, hc, rfl⟩ := token_of_statement hstatement hnew
      obtain ⟨hrole, hroot, honce⟩ := hk.passed email password before m hc
      refine .inr ⟨.member hrole ?_ ?_, List.mem_append_left _ hroot⟩
      · obtain ⟨pre, post, u, hsteps, hu, hm, hactive⟩ := honce
        exact Lts.Once.append _ ⟨pre, post, u, hsteps, hu, m, hm, rfl, rfl, rfl, hactive⟩ _
      · have hnow : (sign ttl s.now m.id m.role m.merchantId).exp = s.now / 1000 + ttl := rfl
        exact Lts.Once.append _ ((site crypto ttl n).once_now hrun hnow) _
  · have hself : Backed crypto ttl (steps ++ [.statement k first random]) db c :=
      (backed_of_statement hstatement hrun h rfl hk).keep
        (keepsIds_of_subset rfl fun _ hm => hm) _
    exact forall_update (P := fun _ c => Backed crypto ttl _ db c) hself
      fun j _ => (h.backed j).keep hkeeps _

/-- **Every step keeps it.** -/
theorem secured_step {a : SiteStep n}
    (hrun : (site crypto ttl n).run (siteStart n) steps = some s)
    (h : Secured crypto ttl steps s) (hstep : (site crypto ttl n).step s a = some s') :
    Secured crypto ttl (steps ++ [a]) s' := by
  have hsame : KeepsIds s.sys.db s.sys.db := keepsIds_of_subset rfl fun _ hm => hm
  cases a with
  | request k tok route =>
    simp only [site] at hstep
    split at hstep
    · next hguard =>
      obtain ⟨hissued, hlive, hroles, -⟩ := hguard
      obtain ⟨db, c, hexec, rfl⟩ := move_call hstep
      obtain ⟨rfl, hstart⟩ := exec_start (by cases route <;> rfl)
        (by cases route <;> exact Input.noConfusion) hexec
      refine h.start _ ?_
      rcases start_route hstart with ⟨status, message, rfl⟩ | ⟨hasked, hfound⟩
      · exact backed_of_none rfl fun _ _ _ _ => by simp
      · refine ⟨fun mid route' heq => ?_, hfound, ?_⟩
        · obtain ⟨rfl, rfl⟩ := Prod.mk.inj (Option.some.inj (hasked.symm.trans heq))
          exact ⟨Lts.did_last _ hrun ⟨k, tok, rfl, hissued, hlive, rfl, mem_requiredRoles hroles⟩,
            List.mem_append_left _ (h.issued tok hissued).2⟩
        · rintro _ _ _ _ rfl
          cases hasked
    · cases hstep
  | acceptInvite k token password =>
    obtain ⟨db, c, hexec, rfl⟩ := move_call hstep
    obtain ⟨rfl, hstart⟩ := exec_start rfl Input.noConfusion hexec
    cases hstart
    exact h.start _ (backed_of_none rfl fun _ _ _ _ => by simp)
  | login k email password =>
    obtain ⟨db, c, hexec, rfl⟩ := move_call hstep
    obtain ⟨rfl, hstart⟩ := exec_start rfl Input.noConfusion hexec
    cases hstart
    exact h.start _ (backed_of_none rfl fun _ _ _ _ => by simp)
  | statement k first random => exact secured_statement hrun h hstep
  | fail k =>
    obtain ⟨db, c, hexec, rfl⟩ := move_call hstep
    simp only [program] at hexec
    split at hexec
    · cases hexec
    · cases hexec
      exact h.start _ (backed_of_none rfl fun _ _ _ _ => by simp)
  | merchantToken merchantId =>
    cases hstep
    refine h.keep _ hsame (fun m hm hnew => absurd rfl (hnew m hm)) (fun tok htok => ?_)
      fun k => (h.backed k).keep hsame _
    rcases List.mem_append.mp htok with hold | hnew
    · exact .inl hold
    · obtain rfl := List.mem_singleton.mp hnew
      exact .inr ⟨.merchant rfl rfl (Lts.did_last _ hrun ⟨rfl, rfl⟩),
        List.mem_append_right _ List.mem_cons_self⟩
  | env e =>
    obtain ⟨sys, hsys, rfl⟩ := Option.map_eq_some_iff.mp hstep
    obtain ⟨db, henv, rfl⟩ := (program crypto).step_env.mp hsys
    have hkeeps := keepsIds_of_env henv
    refine h.keep _ hkeeps (fun m hm hnew => ?_) (fun tok htok => .inl htok)
      fun k => (h.backed k).keep hkeeps _
    exact absurd rfl (hnew m ((event_rows henv).1 m hm))

/-- **It holds in every state of every run.** -/
theorem secured_of_run (hrun : (site crypto ttl n).run (siteStart n) steps = some s) :
    Secured crypto ttl steps s := by
  refine Lts.inv_of_history _ (I := fun done u => Secured crypto ttl done u) ?_
    (fun done u a u' hdone h hs => secured_step hdone h hs) hrun
  exact ⟨fun _ hm => (nomatch hm), fun _ hm => (nomatch hm), fun _ hm => (nomatch hm),
    fun _ htok => (nomatch htok), fun _ => backed_of_none rfl nofun⟩

variable (crypto ttl)

/-- The run has taken a request of the route for the merchant. Its token had not expired, and
came from the merchant, or from a member in a role that the route takes. -/
def Granted (steps : List (SiteStep n)) (merchantId : Nat) (route : Route) : Prop :=
  ∃ before k tok after u, steps = before ++ .request k tok route :: after ∧
    (site crypto ttl n).run (siteStart n) before = some u ∧ tok.live u.now = true ∧
    tok.merchantId = merchantId ∧ tok.role ∈ route.requiredRoles ∧
    TokenOrigin crypto ttl before tok

variable {crypto ttl}

/-- **Who changes a team**: over every interleaving, a member appears, gets a role, is suspended
or disappears only by a request for this very change that the run has taken before, or with the
merchant. -/
theorem member_changes_granted {a : SiteStep n} {merchantId : Nat} {route : Route}
    (hrun : (site crypto ttl n).run (siteStart n) steps = some s)
    (hstep : (site crypto ttl n).step s a = some s')
    (hchange : Change s.members s'.members merchantId route) :
    Granted crypto ttl steps merchantId route ∨ a = .env (.removeMerchant merchantId) := by
  have h := secured_of_run hrun
  have hstays : s'.members ≠ s.members := by
    intro heq
    rw [heq] at hchange
    exact not_change_self hchange
  cases a with
  | statement k first random =>
    obtain ⟨s₁, hmove, rfl⟩ := Option.map_eq_some_iff.mp hstep
    obtain ⟨db, c, hexec, rfl⟩ := move_call hmove
    have hk := h.backed k
    have hasked := change_of_statement (statement_of_exec hexec) h.fresh hk.found hchange
    obtain ⟨before, _, after, u, hsteps, hu, ⟨j, tok, rfl, hissued, hlive, hmerchant, hrole⟩⟩ :=
      (hk.asked _ _ hasked).1
    exact .inl ⟨before, j, tok, after, u, hsteps, hu, hlive, hmerchant, hrole,
      ((secured_of_run hu).issued tok hissued).1⟩
  | request k tok route =>
    simp only [site] at hstep
    split at hstep
    · obtain ⟨db, c, hexec, rfl⟩ := move_call hstep
      obtain ⟨rfl, -⟩ := exec_start (by cases route <;> rfl) (by cases route <;> nofun) hexec
      exact absurd rfl hstays
    · cases hstep
  | acceptInvite k token password =>
    obtain ⟨db, c, hexec, rfl⟩ := move_call hstep
    obtain ⟨rfl, -⟩ := exec_start rfl Input.noConfusion hexec
    exact absurd rfl hstays
  | login k email password =>
    obtain ⟨db, c, hexec, rfl⟩ := move_call hstep
    obtain ⟨rfl, -⟩ := exec_start rfl Input.noConfusion hexec
    exact absurd rfl hstays
  | fail k =>
    obtain ⟨db, c, hexec, rfl⟩ := move_call hstep
    obtain rfl := world_of_start hexec rfl
    exact absurd rfl hstays
  | merchantToken merchantId =>
    cases hstep
    exact absurd rfl hstays
  | env e =>
    obtain ⟨sys, hsys, rfl⟩ := Option.map_eq_some_iff.mp hstep
    obtain ⟨db, henv, rfl⟩ := (program crypto).step_env.mp hsys
    cases e with
    | tick ms =>
      cases henv
      exact absurd rfl hstays
    | removeMerchant id =>
      cases henv
      obtain ⟨m, -, hp, rfl, -⟩ := change_delete hchange
      rw [beq_iff_eq.mp hp]
      exact .inr rfl

/-- **Teams are rooted**: whatever the members of other teams do, a merchant that was never
signed in has no members, and nobody has a token of it. -/
theorem teams_rooted {merchantId : Nat}
    (hrun : (site crypto ttl n).run (siteStart n) steps = some s)
    (hnone : .merchantToken merchantId ∉ steps) :
    (∀ m ∈ s.members, m.merchantId ≠ merchantId) ∧
      ∀ tok ∈ s.issued, tok.merchantId ≠ merchantId := by
  have h := secured_of_run hrun
  refine ⟨fun m hm heq => ?_, fun tok htok heq => ?_⟩
  · exact hnone (heq ▸ h.rooted m hm)
  · exact hnone (heq ▸ (h.issued tok htok).2)

end Secured

/-! ## An administrator who suspends herself -/

/-- The token of the merchant, and that of its first member. -/
def ownerToken : AccessToken := ⟨1, .owner, 1, 900⟩

def adminToken : AccessToken := ⟨0, .admin, 1, 900⟩

def teamSteps : List (SiteStep 1) :=
  [.merchantToken 1,
    .request 0 ownerToken (.invite "dev@company.com" "Alice Dev" .admin),
    .statement 0 0 "aa", .statement 0 0 "aa",
    .acceptInvite 0 "aa" "a long password", .statement 0 0 "aa", .statement 0 0 "aa",
    .login 0 "dev@company.com" "a long password", .statement 0 0 "aa", .statement 0 0 "aa",
    .request 0 adminToken (.suspend 0)]

theorem teamSteps_run : ∃ s, (site plainCrypto 900 1).run (siteStart 1) teamSteps = some s ∧
    ∃ m ∈ s.members.rows, m.id = 0 ∧ m.merchantId = 1 ∧ m.status = .active :=
  (site plainCrypto 900 1).exists_of_leadsTo
    (fun s => ∃ m ∈ s.members.rows, m.id = 0 ∧ m.merchantId = 1 ∧ m.status = .active) _ _
    (by decide +kernel)

/-- Her request is what the run has to show for it. -/
theorem member_changes_granted_suspended : ∃ s s',
    (site plainCrypto 900 1).run (siteStart 1) teamSteps = some s ∧
    (site plainCrypto 900 1).step s (.statement 0 0 "aa") = some s' ∧
    Change s.members s'.members 1 (.suspend 0) ∧
    Granted plainCrypto 900 teamSteps 1 (.suspend 0) := by
  obtain ⟨s, hrun, m, hm, hid, hmerchant, hactive⟩ := teamSteps_run
  obtain ⟨t, hrun', m', hm', hid', hsuspended⟩ :=
    (site plainCrypto 900 1).exists_of_leadsTo
      (fun s => ∃ m ∈ s.members.rows, m.id = 0 ∧ m.status = .suspended) (siteStart 1)
      (teamSteps ++ [.statement 0 0 "aa"]) (by decide +kernel)
  obtain ⟨s₁, hs₁, hlast⟩ := (site plainCrypto 900 1).run_append.mp hrun'
  obtain rfl : s = s₁ := Option.some.inj (hrun.symm.trans hs₁)
  obtain ⟨t', hstep, ht⟩ := (site plainCrypto 900 1).run_cons.mp hlast
  obtain rfl := Option.some.inj ht
  have hchange : Change s.members t'.members 1 (.suspend 0) := by
    have hbefore : m.status ≠ .suspended := by
      rw [hactive]
      nofun
    have := Change.suspended hm hm' (hid'.trans hid.symm) hbefore hsuspended
    rwa [hid, hmerchant] at this
  exact ⟨s, t', hrun, hstep, hchange,
    (member_changes_granted hrun hstep hchange).resolve_right nofun⟩

/-- Another merchant has nobody. -/
theorem teams_rooted_stranger : ∃ s,
    (site plainCrypto 900 1).run (siteStart 1) teamSteps = some s ∧
    (∀ m ∈ s.members, m.merchantId ≠ 2) ∧ ∀ tok ∈ s.issued, tok.merchantId ≠ 2 := by
  obtain ⟨s, hrun, -⟩ := teamSteps_run
  exact ⟨s, hrun, teams_rooted hrun (by simp [teamSteps])⟩

end Stargate.TeamMembers
