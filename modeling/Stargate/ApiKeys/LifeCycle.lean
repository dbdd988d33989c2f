import Stargate.ApiKeys.IpAllowList
import Stargate.Base.StringOrder
import Stargate.Base.Transition

/-!
# The life of an API key (`ApiKeysService`, `ApiKeyGuard`)

Merchants create, list and revoke keys while requests that carry keys are checked. A key is
stored as its hash; what the guard decides comes from the row alone.

- `create`, `list`, `revoke`: the other methods of the service;
- `life`: any order of them, with requests and time passing;
- `Recorded`: the rows are those of the `create`s of the run, revoked or not;
- `authenticates_iff`: so a request passes exactly where its key was created in the run, has
  not been revoked by its merchant since and has not expired;
- `listed_iff`: the list leaves the expiry out of it.
-/

namespace Stargate.ApiKeys

open Base

/-! ## Creating a key -/

/-- A body for `createApiKeySchema`; the text of `expires_at` as the time that it denotes. -/
structure CreateApiKey where
  name : String
  scope : String
  expiresAt : Option Timestamp
  allowedIps : Option (List String)
  deriving DecidableEq

/-- `z.enum(['read_only', 'webhooks', 'full_access'])`. -/
def scope? (text : String) : Option ApiKeyScope :=
  [ApiKeyScope.readOnly, .webhooks, .fullAccess].find? fun scope => scope.code == text

/-- `createApiKeySchema.parse(input)`, the scope of a body that it accepts. -/
def CreateApiKey.parse (input : CreateApiKey) : Option ApiKeyScope :=
  let length := (utf16 input.name).length
  if 1 ≤ length ∧ length ≤ 100 ∧ ∀ ips ∈ input.allowedIps, ∀ ip ∈ ips, ip ≠ "" then
    scope? input.scope
  else none

/-- What a call of `create` takes: the id that the database generates and `randomBytes(32)` are
new with every call. -/
structure Creation where
  merchantId : Uuid
  input : CreateApiKey
  id : Uuid
  bytes : List (Fin 256)
  deriving DecidableEq

/-- `sk_${bytes.toString('hex')}`. -/
def Creation.raw (c : Creation) : String :=
  .ofList ("sk_".toList ++ c.bytes.flatMap fun b => padStart 2 '0' (Nat.toDigits 16 b))

/-- The row of a key. -/
def Creation.row (c : Creation) (sha256 : String → String) (now : Timestamp)
    (scope : ApiKeyScope) : ApiKey where
  id := c.id
  merchantId := c.merchantId
  name := c.input.name
  keyHash := sha256 c.raw
  keyPrefix := .ofList (c.raw.toList.take 10)
  scope
  lastUsedAt := none
  expiresAt := c.input.expiresAt
  revokedAt := none
  allowedIps := c.input.allowedIps
  createdAt := now

/-- `create(merchantId, input)`: the row that is returned, with the raw key, and the table. -/
def create (sha256 : String → String) (now : Timestamp) (keys : Table ApiKey) (c : Creation) :
    Option ((ApiKey × String) × Table ApiKey) := do
  let scope ← c.input.parse
  let row := c.row sha256 now scope
  let keys ← keys.insert? row
  some ((row, c.raw), keys)

/-- `list(merchantId)`: `ORDER BY created_at DESC` is `orderBy`. -/
def list (orderBy : List ApiKey → List ApiKey) (keys : Table ApiKey) (merchantId : Uuid) :
    List ApiKey :=
  orderBy (keys.rows.filter fun k => k.merchantId == merchantId && k.revokedAt.isNone)

/-- The row that `revoke` matches. -/
def revocable (merchantId id : Uuid) (k : ApiKey) : Bool :=
  k.id == id && k.merchantId == merchantId && k.revokedAt.isNone

def markRevoked (now : Timestamp) (k : ApiKey) : ApiKey := { k with revokedAt := some now }

/-- `revoke(merchantId, id)`: `result.rows[0] ?? null`, and the table. -/
def revoke (now : Timestamp) (keys : Table ApiKey) (merchantId id : Uuid) :
    Option (Uuid × Timestamp) × Table ApiKey :=
  ((keys.find? (revocable merchantId id)).map fun k => (k.id, now),
    keys.modify (revocable merchantId id) (markRevoked now) fun _ => rfl)

/-! ## Runs -/

structure KeyWorld where
  keys : Table ApiKey
  now : Timestamp

inductive KeyStep where
  /-- A call of `create` that succeeds: others leave nothing behind. -/
  | create (c : Creation)
  | revoke (merchantId id : Uuid)
  /-- A request, on a handler with a required scope or none. -/
  | request (required : Option ApiKeyScope) (r : Request)
  | wait (later : Timestamp)

/-- The calls, in any order. -/
def life (sha256 : String → String) : Lts KeyWorld KeyStep where
  step w
    | .create c => (create sha256 w.now w.keys c).map fun res => { w with keys := res.2 }
    | .revoke merchantId id => some { w with keys := (revoke w.now w.keys merchantId id).2 }
    | .request required r => some { w with keys := (canActivate sha256 required w.now w.keys r).2 }
    | .wait later => if w.now ≤ later then some { w with now := later } else none

/-- Before the first key. -/
def noKeys (now : Timestamp) : KeyWorld := ⟨.empty, now⟩

/-- The row is that of a creation. -/
structure ApiKey.Of (k : ApiKey) (sha256 : String → String) (c : Creation) : Prop where
  id : k.id = c.id
  merchantId : k.merchantId = c.merchantId
  name : k.name = c.input.name
  keyHash : k.keyHash = sha256 c.raw
  scope : c.input.parse = some k.scope
  expiresAt : k.expiresAt = c.input.expiresAt
  allowedIps : k.allowedIps = c.input.allowedIps

/-- Its merchant revokes a key. -/
def Creation.IsRevokedBy (c : Creation) (s : KeyStep) : Prop := s = .revoke c.merchantId c.id

/-- The row of a creation, after further steps. -/
structure Kept (sha256 : String → String) (c : Creation) (post : List KeyStep) (k : ApiKey) :
    Prop where
  of : k.Of sha256 c
  revoked : k.revokedAt = none ↔ ∀ s ∈ post, ¬ c.IsRevokedBy s

/-- The rows are those of the creations of a run. -/
structure Recorded (sha256 : String → String) (steps : List KeyStep) (keys : Table ApiKey) :
    Prop where
  sound : ∀ k ∈ keys, ∃ pre c post, steps = pre ++ .create c :: post ∧ Kept sha256 c post k
  complete : ∀ pre c post, steps = pre ++ .create c :: post → ∃ k ∈ keys, Kept sha256 c post k

section Runs

variable {sha256 : String → String} {w w' : KeyWorld} {steps : List KeyStep} {keys : Table ApiKey}

theorem create_spec {now : Timestamp} {c : Creation} {res : (ApiKey × String) × Table ApiKey}
    (h : create sha256 now keys c = some res) :
    ∃ scope, c.input.parse = some scope ∧ res.1 = (c.row sha256 now scope, c.raw) ∧
      ∀ k, k ∈ res.2 ↔ k ∈ keys ∨ k = c.row sha256 now scope := by
  simp only [create, Option.bind_eq_bind, Option.bind_eq_some_iff, Option.some.injEq] at h
  obtain ⟨scope, hscope, keys', hins, rfl⟩ := h
  exact ⟨scope, hscope, rfl, Table.mem_of_insert? hins⟩

/-- A step that changes rows in place: each row stays that of its creation, and is revoked where
the step does that. -/
theorem Recorded.modify {f : ApiKey → ApiKey} {s : KeyStep} {keys' : Table ApiKey}
    (h : Recorded sha256 steps keys) (hs : ∀ c, s ≠ .create c)
    (hrows : ∀ k, k ∈ keys' ↔ ∃ k₀ ∈ keys, f k₀ = k)
    (hf : ∀ k ∈ keys, ∀ c, k.Of sha256 c → (f k).Of sha256 c ∧
      ((f k).revokedAt = none ↔ k.revokedAt = none ∧ ¬ c.IsRevokedBy s)) :
    Recorded sha256 (steps ++ [s]) keys' := by
  have hkept : ∀ k ∈ keys, ∀ c post, Kept sha256 c post k → Kept sha256 c (post ++ [s]) (f k) := by
    intro k hk c post hkept
    obtain ⟨hof, hrevoked⟩ := hf k hk c hkept.of
    refine ⟨hof, ?_⟩
    rw [hrevoked, hkept.revoked, List.forall_mem_append, List.forall_mem_singleton]
  constructor
  · intro k hk
    obtain ⟨k₀, hk₀, rfl⟩ := (hrows k).mp hk
    obtain ⟨pre, c, post, rfl, hold⟩ := h.sound k₀ hk₀
    exact ⟨pre, c, post ++ [s], by simp, hkept k₀ hk₀ c post hold⟩
  · intro pre c post heq
    rcases concat_eq_append_cons heq with ⟨-, hcreate, -⟩ | ⟨post, rfl, rfl⟩
    · exact absurd hcreate.symm (hs c)
    · obtain ⟨k, hk, hold⟩ := h.complete pre c post rfl
      exact ⟨f k, (hrows _).mpr ⟨k, hk, rfl⟩, hkept k hk c post hold⟩

/-- A step that creates a key. -/
theorem Recorded.create {c : Creation} {k : ApiKey} {keys' : Table ApiKey}
    (h : Recorded sha256 steps keys) (hrows : ∀ x, x ∈ keys' ↔ x ∈ keys ∨ x = k)
    (hof : k.Of sha256 c) (hrevoked : k.revokedAt = none) :
    Recorded sha256 (steps ++ [.create c]) keys' := by
  have hnew : Kept sha256 c [] k := ⟨hof, by simp [hrevoked]⟩
  have hkept : ∀ k c' post, Kept sha256 c' post k → Kept sha256 c' (post ++ [.create c]) k := by
    intro k c' post hkept
    refine ⟨hkept.of, ?_⟩
    rw [hkept.revoked, List.forall_mem_append, List.forall_mem_singleton]
    exact ⟨fun hall => ⟨hall, fun hrevoke => nomatch hrevoke⟩, fun hall => hall.1⟩
  constructor
  · intro x hx
    rcases (hrows x).mp hx with hx | rfl
    · obtain ⟨pre, c', post, rfl, hold⟩ := h.sound x hx
      exact ⟨pre, c', post ++ [.create c], by simp, hkept x c' post hold⟩
    · exact ⟨steps, c, [], rfl, hnew⟩
  · intro pre c' post heq
    rcases concat_eq_append_cons heq with ⟨-, hcreate, rfl⟩ | ⟨post, rfl, rfl⟩
    · obtain rfl := KeyStep.create.inj hcreate
      exact ⟨k, (hrows k).mpr (.inr rfl), hnew⟩
    · obtain ⟨x, hx, hold⟩ := h.complete pre c' post rfl
      exact ⟨x, (hrows x).mpr (.inl hx), hkept x c' post hold⟩

theorem recorded_noKeys (now : Timestamp) : Recorded sha256 [] (noKeys now).keys where
  sound k hk := nomatch hk
  complete pre c post heq := absurd heq (by simp)

/-- A request stamps some rows. -/
theorem mem_canActivate (sha256 : String → String) (required : Option ApiKeyScope)
    (now : Timestamp) (keys : Table ApiKey) (r : Request) :
    ∃ p : ApiKey → Bool, ∀ k, k ∈ (canActivate sha256 required now keys r).2 ↔
      ∃ k₀ ∈ keys, (if p k₀ then stampUse now k₀ else k₀) = k := by
  have hnone : ∃ p : ApiKey → Bool, ∀ k, k ∈ keys ↔
      ∃ k₀ ∈ keys, (if p k₀ then stampUse now k₀ else k₀) = k :=
    ⟨fun _ => false, fun k => by simp⟩
  have hvalidate : ∀ hash ip, ∃ p : ApiKey → Bool, ∀ k, k ∈ (validate now keys hash ip).2 ↔
      ∃ k₀ ∈ keys, (if p k₀ then stampUse now k₀ else k₀) = k := by
    intro hash ip
    unfold validate
    split
    · exact hnone
    · refine ⟨usable hash now, fun k => ?_⟩
      dsimp only
      split <;> exact Table.mem_modify (key_stampUse now)
  unfold canActivate
  split
  · exact hnone
  · next raw hraw =>
    have h := hvalidate (sha256 raw) (clientIp r)
    split
    · next heq => rwa [heq] at h
    · next heq =>
      rw [heq] at h
      split <;> exact h

/-- **Every step keeps the record.** -/
theorem recorded_step {s : KeyStep} (h : Recorded sha256 steps w.keys)
    (hstep : (life sha256).step w s = some w') : Recorded sha256 (steps ++ [s]) w'.keys := by
  cases s with
  | create c =>
    obtain ⟨res, hcreate, rfl⟩ := Option.map_eq_some_iff.mp hstep
    obtain ⟨scope, hscope, -, hrows⟩ := create_spec hcreate
    exact h.create hrows ⟨rfl, rfl, rfl, rfl, hscope, rfl, rfl⟩ rfl
  | revoke merchantId id =>
    cases hstep
    have hrows : ∀ k, k ∈ (revoke w.now w.keys merchantId id).2 ↔ ∃ k₀ ∈ w.keys,
        (if revocable merchantId id k₀ then markRevoked w.now k₀ else k₀) = k :=
      fun k => Table.mem_modify (f := markRevoked w.now) fun _ => rfl
    refine h.modify (fun c => by simp) hrows fun k _ c hof => ?_
    have hmine : c.IsRevokedBy (.revoke merchantId id) ↔ k.merchantId = merchantId ∧ k.id = id := by
      rw [Creation.IsRevokedBy, KeyStep.revoke.injEq, hof.merchantId, hof.id]
      exact ⟨fun heq => ⟨heq.1.symm, heq.2.symm⟩, fun heq => ⟨heq.1.symm, heq.2.symm⟩⟩
    rw [hmine]
    split
    · next hmatch =>
      simp only [revocable, Bool.and_eq_true, beq_iff_eq, Option.isNone_iff_eq_none] at hmatch
      obtain ⟨⟨hid, hmerchant⟩, -⟩ := hmatch
      refine ⟨⟨hof.id, hof.merchantId, hof.name, hof.keyHash, hof.scope, hof.expiresAt,
        hof.allowedIps⟩, ?_⟩
      exact iff_of_false (fun hnone => nomatch hnone) fun hboth => hboth.2 ⟨hmerchant, hid⟩
    · next hmatch =>
      refine ⟨hof, fun hnone => ⟨hnone, ?_⟩, fun hboth => hboth.1⟩
      rintro ⟨rfl, rfl⟩
      exact hmatch (by simp [revocable, hnone])
  | request required r =>
    cases hstep
    obtain ⟨p, hrows⟩ := mem_canActivate sha256 required w.now w.keys r
    refine h.modify (fun c => by simp) hrows fun k _ c hof => ?_
    have hnot : ¬ c.IsRevokedBy (.request required r) := fun heq => nomatch heq
    split
    · exact ⟨⟨hof.id, hof.merchantId, hof.name, hof.keyHash, hof.scope, hof.expiresAt,
        hof.allowedIps⟩, ⟨fun hnone => ⟨hnone, hnot⟩, fun hboth => hboth.1⟩⟩
    · exact ⟨hof, fun hnone => ⟨hnone, hnot⟩, fun hboth => hboth.1⟩
  | wait later =>
    simp only [life] at hstep
    split at hstep
    · cases hstep
      refine h.modify (f := id) (fun c => by simp) (fun k => by simp) fun k _ c hof => ⟨hof, ?_⟩
      simp [Creation.IsRevokedBy]
    · cases hstep

/-- **The table of every run.** -/
theorem recorded_of_run {now : Timestamp} (hrun : (life sha256).run (noKeys now) steps = some w) :
    Recorded sha256 steps w.keys :=
  (life sha256).inv_of_history (I := fun done u => Recorded sha256 done u.keys)
    (recorded_noKeys now) (fun _ _ _ _ _ h hstep => recorded_step h hstep) hrun

/-- The key of a creation is good for a request: its merchant has not revoked it since, it has
not expired, and the request comes from an address of its list. -/
structure Creation.Good (c : Creation) (post : List KeyStep) (now : Timestamp) (r : Request) :
    Prop where
  unrevoked : ∀ s ∈ post, ¬ c.IsRevokedBy s
  unexpired : ∀ expiresAt, c.input.expiresAt = some expiresAt → now < expiresAt
  allowed : isIpAllowed (clientIp r) c.input.allowedIps = true

/-- The row of a creation can be used where the creation is good. -/
theorem usable_iff {c : Creation} {post : List KeyStep} {k : ApiKey} {now : Timestamp}
    (h : Kept sha256 c post k) (hash : String) : usable hash now k = true ↔
      hash = sha256 c.raw ∧ (∀ s ∈ post, ¬ c.IsRevokedBy s) ∧
        ∀ expiresAt, c.input.expiresAt = some expiresAt → now < expiresAt := by
  simp only [usable, Bool.and_eq_true, beq_iff_eq, Option.isNone_iff_eq_none, Option.all_eq_true,
    decide_eq_true_eq, h.revoked, h.of.keyHash, h.of.expiresAt, and_assoc]
  rw [eq_comm (a := sha256 c.raw)]

/-- **Who passes**: over every run, a request passes the guard exactly where it carries the key of
a creation of the run that is still good, and the key's scope is enough. It acts for the merchant
of the creation, and nothing but a revocation by this merchant ends that before the key
expires. -/
theorem authenticates_iff {now : Timestamp} {required : Option ApiKeyScope} {r : Request}
    {user : ApiUser} (hrun : (life sha256).run (noKeys now) steps = some w) :
    (canActivate sha256 required w.now w.keys r).1 = .ok user ↔
      ∃ pre c post raw scope, steps = pre ++ .create c :: post ∧ rawKey r = .ok raw ∧
        sha256 raw = sha256 c.raw ∧ c.Good post w.now r ∧ c.input.parse = some scope ∧
        user = ⟨c.merchantId, scope⟩ ∧
        ∀ scope', required = some scope' → scopeRank scope' ≤ scopeRank scope := by
  have hrec := recorded_of_run hrun
  rw [canActivate_ok_iff]
  constructor
  · rintro ⟨raw, k, hraw, hfind, hip, rfl, hrank⟩
    obtain ⟨hk, husable⟩ := Table.find?_some hfind
    obtain ⟨pre, c, post, hsteps, hkept⟩ := hrec.sound k hk
    obtain ⟨hhash, hunrevoked, hunexpired⟩ := (usable_iff hkept _).mp husable
    refine ⟨pre, c, post, raw, k.scope, hsteps, hraw, hhash, ⟨hunrevoked, hunexpired, ?_⟩,
      hkept.of.scope, by rw [hkept.of.merchantId], hrank⟩
    rwa [← hkept.of.allowedIps]
  · rintro ⟨pre, c, post, raw, scope, hsteps, hraw, hhash, hgood, hscope, rfl, hrank⟩
    obtain ⟨k, hk, hkept⟩ := hrec.complete pre c post hsteps
    have husable : usable (sha256 raw) w.now k = true :=
      (usable_iff hkept _).mpr ⟨hhash, hgood.unrevoked, hgood.unexpired⟩
    obtain ⟨k', hfind⟩ : ∃ k', w.keys.find? (usable (sha256 raw) w.now) = some k' := by
      rw [← Option.isSome_iff_exists, Table.find?, List.find?_isSome]
      exact ⟨k, hk, husable⟩
    obtain rfl := eq_of_find w.now hk (hhash.trans hkept.of.keyHash.symm) hfind
    obtain rfl : scope = k'.scope := Option.some.inj (hscope.symm.trans hkept.of.scope)
    exact ⟨raw, k', hraw, hfind, by rw [hkept.of.allowedIps]; exact hgood.allowed,
      by rw [hkept.of.merchantId], hrank⟩

/-- **Who is listed**: a merchant's list has the rows of its creations that it has not revoked
since, also those that have expired. -/
theorem listed_iff {now : Timestamp} {orderBy : List ApiKey → List ApiKey} {merchantId id : Uuid}
    (horder : ∀ rows, (orderBy rows).Perm rows)
    (hrun : (life sha256).run (noKeys now) steps = some w) :
    (∃ k ∈ list orderBy w.keys merchantId, k.id = id) ↔
      ∃ pre c post, steps = pre ++ .create c :: post ∧ c.id = id ∧ c.merchantId = merchantId ∧
        ∀ s ∈ post, ¬ c.IsRevokedBy s := by
  have hrec := recorded_of_run hrun
  have hmem : ∀ k, k ∈ list orderBy w.keys merchantId ↔
      k ∈ w.keys ∧ k.merchantId = merchantId ∧ k.revokedAt = none := by
    intro k
    rw [list, (horder _).mem_iff, List.mem_filter]
    simp
  constructor
  · rintro ⟨k, hk, rfl⟩
    obtain ⟨hk, hmerchant, hunrevoked⟩ := (hmem k).mp hk
    obtain ⟨pre, c, post, hsteps, hkept⟩ := hrec.sound k hk
    exact ⟨pre, c, post, hsteps, hkept.of.id.symm, hkept.of.merchantId.symm.trans hmerchant,
      hkept.revoked.mp hunrevoked⟩
  · rintro ⟨pre, c, post, hsteps, rfl, rfl, hunrevoked⟩
    obtain ⟨k, hk, hkept⟩ := hrec.complete pre c post hsteps
    exact ⟨k, (hmem k).mpr ⟨hk, hkept.of.merchantId, hkept.revoked.mpr hunrevoked⟩, hkept.of.id⟩

end Runs

/-! ## A key that is revoked -/

def serverKey : Creation where
  merchantId := 1
  input := ⟨"server", "webhooks", some 100, none⟩
  id := 7
  bytes := [1, 255]

/-- A request with that key. -/
def serverRequest : Request where
  headers name := [("authorization", "Bearer sk_01ff")].lookup name
  ip := some "203.0.113.9"
  remoteAddress := none

/-- Another merchant tries to revoke the key, and time passes. -/
def serverSteps : List KeyStep :=
  [.create serverKey, .request none serverRequest, .revoke 2 7, .wait 90]

theorem serverSteps_run :
    ∃ w, (life id).run (noKeys 0) serverSteps = some w ∧ w.now = 90 :=
  (life id).exists_of_leadsTo (fun w => w.now = 90) _ _ (by decide +kernel)

theorem unrevoked_serverKey : ∀ s ∈ serverSteps.tail, ¬ serverKey.IsRevokedBy s := by
  simp [serverSteps, serverKey, Creation.IsRevokedBy]

/-- It passes until it expires. -/
theorem authenticates_iff_server : ∃ w, (life id).run (noKeys 0) serverSteps = some w ∧
    w.now = 90 ∧
    (canActivate id (some .webhooks) w.now w.keys serverRequest).1 = .ok ⟨1, .webhooks⟩ := by
  obtain ⟨w, hrun, hnow⟩ := serverSteps_run
  refine ⟨w, hrun, hnow, (authenticates_iff hrun).mpr ?_⟩
  refine ⟨[], serverKey, _, "sk_01ff", .webhooks, rfl, by decide +kernel, by decide +kernel,
    ⟨unrevoked_serverKey, ?_, rfl⟩, by decide +kernel, rfl, by decide⟩
  rintro _ ⟨⟩
  rw [hnow]
  decide

/-- It is in the list of its merchant. -/
theorem listed_iff_server : ∃ w, (life id).run (noKeys 0) serverSteps = some w ∧
    ∃ k ∈ list id w.keys 1, k.id = 7 := by
  obtain ⟨w, hrun, -⟩ := serverSteps_run
  refine ⟨w, hrun, (listed_iff (fun _ => List.Perm.refl _) hrun).mpr ?_⟩
  exact ⟨[], serverKey, _, rfl, rfl, rfl, unrevoked_serverKey⟩

end Stargate.ApiKeys
