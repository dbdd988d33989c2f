import Stargate.Webhooks.Attempts

/-!
# The secrets of a webhook

`rotateSecret` returns a new secret once and stores its hash. The hash it replaces becomes
the previous one, which counts for 24 hours.

- `rotateSecret`, `verifyWithRotation`: the service;
- `merchantAccepts`: the check that merchants are told to make;
- `accepts_delivery_iff`: it is made with the secret, but requests are signed with the hash;
- `Rotations`: the rotations of a webhook, in the order of their times;
- `verifyWithRotation_iff`: which keys `verifyWithRotation` accepts, and
  `overlap_iff`: when these are all that were replaced in the last 24 hours.
-/

namespace Stargate.Webhooks

open Base

/-! ## The service -/

/-- HMAC-SHA256, and SHA-256, as hex digits. -/
structure SecretEnv extends WorkerEnv where
  sha256 : String → String

/-- A new key: `SET previous_hashed_secret=hashed_secret, hashed_secret=$3,
secret_rotated_at=NOW()`. -/
def Hook.rotate (h : Hook) (key : String) (now : Timestamp) : Hook :=
  { h with
    previousHashedSecret := some h.hashedSecret
    hashedSecret := key
    secretRotatedAt := some now }

/-- `rotateSecret(merchantId, id)` of an active webhook; `newSecret` is returned. -/
def rotateSecret (env : SecretEnv) (h : Hook) (newSecret : String) (now : Timestamp) : Hook :=
  h.rotate (env.sha256 newSecret) now

/-- `verify(secret, rawBody, signature)`. -/
def verify (env : WorkerEnv) (secret rawBody signature : String) : Bool :=
  sign env secret rawBody == signature

/-- `verifyWithRotation(webhookId, payload, signature)`: the current key, or else the
previous one, while less than 24 hours have passed since `secret_rotated_at`. -/
def verifyWithRotation (env : WorkerEnv) (now : Timestamp) (h : Hook)
    (rawBody signature : String) : Bool :=
  verify env h.hashedSecret rawBody signature ||
    (previousKey now h).any fun key => verify env key rawBody signature

/-- What stands after `sha256=`. -/
theorem header_inj {a b : String} : "sha256=" ++ a = "sha256=" ++ b ↔ a = b := by
  refine ⟨fun h => ?_, fun h => h ▸ rfl⟩
  have hl := congrArg String.toList h
  simp only [String.toList_append] at hl
  exact String.toList_inj.mp (List.append_cancel_left hl)

theorem sign_inj {env : WorkerEnv} {key key' body : String}
    (hmac : Function.Injective fun key => env.hmacSha256 key body) :
    sign env key body = sign env key' body ↔ key = key' :=
  header_inj.trans hmac.eq_iff

/-! ## The merchant's check -/

/-- The documented check: the HMAC of the body, keyed with a secret, against the header
`x-stargate-signature`. -/
def merchantAccepts (env : WorkerEnv) (secret : String) (r : Request) : Bool :=
  "sha256=" ++ env.hmacSha256 secret r.body == r.signature

/-- A rotation, by the secret that it returns. -/
structure SecretRotation where
  newSecret : String
  time : Timestamp
  deriving DecidableEq

/-- The webhook after these rotations. -/
def rotateAll (env : SecretEnv) (h : Hook) : List SecretRotation → Hook
  | [] => h
  | r :: rs => rotateAll env (rotateSecret env h r.newSecret r.time) rs

/-- The secret that was returned last; the first one was returned at creation. -/
def lastSecret (secret : String) : List SecretRotation → String
  | [] => secret
  | r :: rs => lastSecret r.newSecret rs

/-- The key that is stored is the hash of the secret that was returned last. -/
theorem hashedSecret_rotateAll {env : SecretEnv} {h : Hook} {secret : String}
    (hmigrated : h.hashedSecret = env.sha256 secret) (rs : List SecretRotation) :
    (rotateAll env h rs).hashedSecret = env.sha256 (lastSecret secret rs) := by
  induction rs generalizing h secret with
  | nil => exact hmigrated
  | cons r rs ih => exact ih rfl

/-- **When a merchant accepts a delivery.** The worker has selected the webhook after the
rotations `before`; those of `after` came before the `POST`. The check succeeds exactly if
the hash of the one secret and the other secret give the same HMAC. -/
theorem accepts_delivery_iff {env : SecretEnv} {h : Hook} {secret : String}
    (hmigrated : h.hashedSecret = env.sha256 secret) (before after : List SecretRotation)
    (d : Delivery) (now : Timestamp) :
    merchantAccepts env.toWorkerEnv (lastSecret secret (before ++ after))
        (request env.toWorkerEnv now d (rotateAll env h before)) = true ↔
      env.hmacSha256 (env.sha256 (lastSecret secret before)) d.payload
        = env.hmacSha256 (lastSecret secret (before ++ after)) d.payload := by
  rw [merchantAccepts, request, sign, hashedSecret_rotateAll hmigrated, beq_iff_eq, header_inj,
    eq_comm]

/-- Where no two keys have the same HMAC, a merchant accepts no delivery: a secret has 70
characters, and a hash has 64. -/
theorem rejects_delivery {env : SecretEnv} {h : Hook} {secret : String}
    (hmigrated : h.hashedSecret = env.sha256 secret) (rs : List SecretRotation)
    (d : Delivery) (now : Timestamp)
    (hmac : Function.Injective fun key => env.hmacSha256 key d.payload)
    (hdigest : ∀ s, (env.sha256 s).length = 64) (hsecret : (lastSecret secret rs).length = 70) :
    merchantAccepts env.toWorkerEnv (lastSecret secret rs)
      (request env.toWorkerEnv now d (rotateAll env h rs)) = false := by
  rw [Bool.eq_false_iff]
  intro haccepts
  rw [merchantAccepts, request, sign, hashedSecret_rotateAll hmigrated, beq_iff_eq,
    header_inj] at haccepts
  have hlength := hdigest (lastSecret secret rs)
  rw [← hmac haccepts, hsecret] at hlength
  cases hlength

/-- A secret, a hash and an HMAC that depends on its key. -/
def testSecretEnv : SecretEnv where
  hmacSha256 key rawBody := key ++ "/" ++ rawBody
  sha256 secret := "hash of " ++ secret

def migratedHook : Hook := { testHook with hashedSecret := testSecretEnv.sha256 "whsec_0" }

/-- The merchant rejects the first delivery. -/
theorem delivery_rejected : migratedHook.hashedSecret = testSecretEnv.sha256 "whsec_0" ∧
    testSecretEnv.hmacSha256 "a" "[]" ≠ testSecretEnv.hmacSha256 "b" "[]" ∧
    merchantAccepts testSecretEnv.toWorkerEnv "whsec_0"
      (request testSecretEnv.toWorkerEnv 0 firstDelivery migratedHook) = false := by
  decide +kernel

theorem accepts_delivery_iff_migrated :
    merchantAccepts testSecretEnv.toWorkerEnv "whsec_1"
        (request testSecretEnv.toWorkerEnv 1 firstDelivery
          (rotateAll testSecretEnv migratedHook [⟨"whsec_1", 0⟩])) = true ↔
      "hash of whsec_1/[]" = "whsec_1/[]" := by
  have hmigrated : migratedHook.hashedSecret = testSecretEnv.sha256 "whsec_0" := rfl
  have hiff := accepts_delivery_iff hmigrated [⟨"whsec_1", 0⟩] [] firstDelivery 1
  exact hiff

/-! ## Rotations -/

/-- A rotation, by the key that it stores. -/
structure KeyRotation where
  key : String
  time : Timestamp
  deriving DecidableEq

def rotateKeys (h : Hook) : List KeyRotation → Hook
  | [] => h
  | r :: rs => rotateKeys (h.rotate r.key r.time) rs

/-- The keys that were replaced, with the times of that; the first one is `key`. -/
def replaced (key : String) : List KeyRotation → List (String × Timestamp)
  | [] => []
  | r :: rs => (key, r.time) :: replaced r.key rs

/-- The current key. -/
def lastKey (key : String) : List KeyRotation → String
  | [] => key
  | r :: rs => lastKey r.key rs

/-- A rotation of the secret is one of its key. -/
theorem rotateAll_eq (env : SecretEnv) (h : Hook) (rs : List SecretRotation) :
    rotateAll env h rs = rotateKeys h (rs.map fun r => ⟨env.sha256 r.newSecret, r.time⟩) := by
  induction rs generalizing h with
  | nil => rfl
  | cons r rs ih => exact ih _

theorem hashedSecret_rotateKeys (h : Hook) (rs : List KeyRotation) :
    (rotateKeys h rs).hashedSecret = lastKey h.hashedSecret rs := by
  induction rs generalizing h with
  | nil => rfl
  | cons r rs ih => exact ih _

/-- The previous key, and its time, are those of the last rotation. -/
theorem previous_rotateKeys (h : Hook) (r : KeyRotation) (rs : List KeyRotation) :
    ∃ key time, (replaced h.hashedSecret (r :: rs)).getLast? = some (key, time) ∧
      (rotateKeys h (r :: rs)).previousHashedSecret = some key ∧
      (rotateKeys h (r :: rs)).secretRotatedAt = some time := by
  induction rs generalizing h r with
  | nil => exact ⟨h.hashedSecret, r.time, rfl, rfl, rfl⟩
  | cons r' rs ih =>
    obtain ⟨key, time, hlast, hprevious, htime⟩ := ih (h.rotate r.key r.time) r'
    refine ⟨key, time, ?_, hprevious, htime⟩
    rw [replaced, replaced, List.getLast?_cons_cons]
    exact hlast

/-- The rotations of a webhook since its creation. -/
structure Rotations where
  created : Hook
  later : List KeyRotation
  fresh : created.previousHashedSecret = none
  /-- Keys are hex digests. -/
  first_ne : created.hashedSecret ≠ ""
  later_ne : ∀ r ∈ later, r.key ≠ ""
  increasing : later.Pairwise fun a b => a.time < b.time

namespace Rotations

variable (R : Rotations)

/-- The row after all rotations. -/
def hook : Hook := rotateKeys R.created R.later

def current : String := lastKey R.created.hashedSecret R.later

/-- The keys that were replaced, and when. -/
def replacedKeys : List (String × Timestamp) := replaced R.created.hashedSecret R.later

/-- The keys that should count at a time: the current one, and those that were replaced
less than 24 hours before. -/
def Counts (t : Timestamp) (key : String) : Prop :=
  key = R.current ∨ ∃ time, (key, time) ∈ R.replacedKeys ∧ t < time + gracePeriod

/-- The last rotation. -/
def Last (key : String) (time : Timestamp) : Prop := R.replacedKeys.getLast? = some (key, time)

theorem hashedSecret_hook : R.hook.hashedSecret = R.current := hashedSecret_rotateKeys _ _

theorem replaced_ne {key : String} {time : Timestamp} :
    ∀ {first : String} {rs : List KeyRotation}, first ≠ "" → (∀ r ∈ rs, r.key ≠ "") →
      (key, time) ∈ replaced first rs → key ≠ ""
  | _, r :: rs, hfirst, hrs, hmem => by
    rcases List.mem_cons.mp hmem with heq | hmem
    · cases heq
      exact hfirst
    · exact replaced_ne (hrs r List.mem_cons_self)
        (fun r' hr' => hrs r' (List.mem_cons_of_mem r hr')) hmem

/-- The times of replaced keys are those of the rotations. -/
theorem time_replaced (first : String) (rs : List KeyRotation) :
    (replaced first rs).map Prod.snd = rs.map KeyRotation.time := by
  induction rs generalizing first with
  | nil => rfl
  | cons r rs ih =>
    rw [replaced, List.map_cons, List.map_cons, ih]

/-- No rotation is after the last one. -/
theorem le_last {key key' : String} {time time' : Timestamp} (hlast : R.Last key time)
    (hmem : (key', time') ∈ R.replacedKeys) : time' ≤ time := by
  have htimes : (R.replacedKeys.map Prod.snd).Pairwise (· < ·) := by
    rw [replacedKeys, time_replaced]
    exact List.pairwise_map.mpr R.increasing
  obtain ⟨before, hbefore⟩ := List.getLast?_eq_some_iff.mp hlast
  rw [hbefore] at htimes hmem
  rw [List.map_append, List.pairwise_append] at htimes
  rcases List.mem_append.mp hmem with hmem | hmem
  · exact Nat.le_of_lt (htimes.2.2 _ (List.mem_map_of_mem hmem) _ List.mem_cons_self)
  · cases List.mem_singleton.mp hmem
    exact Nat.le_refl time

/-- The previous key counts while its rotation is recent. -/
theorem previousKey_hook {t : Timestamp} {key : String} :
    previousKey t R.hook = some key ↔ ∃ time, R.Last key time ∧ t < time + gracePeriod := by
  cases hlater : R.later with
  | nil =>
    have hhook : R.hook = R.created := by rw [hook, hlater]; rfl
    refine iff_of_false ?_ ?_
    · rw [hhook, previousKey, R.fresh]
      rintro ⟨⟩
    · rintro ⟨time, hlast, -⟩
      rw [Last, replacedKeys, hlater] at hlast
      cases hlast
  | cons r rs =>
    obtain ⟨key', time, hlast, hprevious, htime⟩ := previous_rotateKeys R.created r rs
    rw [← hlater] at hlast hprevious htime
    have hne : key' ≠ "" := replaced_ne R.first_ne R.later_ne
      (List.mem_of_getLast? hlast)
    have hkey : previousKey t R.hook = if t < time + gracePeriod then some key' else none := by
      rw [previousKey, hook, hprevious, htime]
      simp [hne]
    rw [hkey]
    constructor
    · intro hsome
      split at hsome
      · next hlt =>
        cases hsome
        exact ⟨time, hlast, hlt⟩
      · cases hsome
    · rintro ⟨time', hlast', hlt⟩
      cases hlast.symm.trans hlast'
      exact if_pos hlt

variable {R} {env : WorkerEnv} {t : Timestamp}

/-- **The keys that `verifyWithRotation` accepts** a signature of: the current one, and the
one that the last rotation replaced, for 24 hours. -/
theorem verifyWithRotation_iff {key body : String}
    (hmac : Function.Injective fun key => env.hmacSha256 key body) :
    verifyWithRotation env t R.hook body (sign env key body) = true ↔
      key = R.current ∨ ∃ time, R.Last key time ∧ t < time + gracePeriod := by
  rw [verifyWithRotation, Bool.or_eq_true, verify, beq_iff_eq, sign_inj hmac, hashedSecret_hook,
    Option.any_eq_true_iff_get, eq_comm, ← previousKey_hook]
  refine or_congr_right ⟨?_, fun hkey => ?_⟩
  · rintro ⟨hsome, haccepts⟩
    rw [verify, beq_iff_eq, sign_inj hmac] at haccepts
    rw [← haccepts, Option.some_get]
  · refine ⟨hkey ▸ rfl, ?_⟩
    rw [verify, beq_iff_eq, sign_inj hmac]
    exact Option.get_of_mem _ hkey

/-- **When the keys of the last 24 hours are accepted.** They are exactly if those that were
replaced in that time are the current key and the one that the last rotation replaced. -/
theorem overlap_iff (hmac : ∀ body, Function.Injective fun key => env.hmacSha256 key body) :
    (∀ key body, verifyWithRotation env t R.hook body (sign env key body) = true ↔
      R.Counts t key) ↔
    ∀ key time, (key, time) ∈ R.replacedKeys → t < time + gracePeriod →
      key = R.current ∨ ∃ last, R.Last key last := by
  constructor
  · intro h key time hmem hlt
    have haccepts := (h key "").mpr (.inr ⟨time, hmem, hlt⟩)
    exact ((verifyWithRotation_iff (hmac "")).mp haccepts).imp_right
      fun ⟨last, hlast, _⟩ => ⟨last, hlast⟩
  · intro h key body
    rw [verifyWithRotation_iff (hmac body)]
    constructor
    · rintro (hcurrent | ⟨last, hlast, hlt⟩)
      · exact .inl hcurrent
      · exact .inr ⟨last, List.mem_of_getLast? hlast, hlt⟩
    · rintro (hcurrent | ⟨time, hmem, hlt⟩)
      · exact .inl hcurrent
      · refine (h key time hmem hlt).imp_right fun ⟨last, hlast⟩ => ⟨last, hlast, ?_⟩
        exact Nat.lt_of_lt_of_le hlt (Nat.add_le_add_right (R.le_last hlast hmem) gracePeriod)

end Rotations

/-! ## Two rotations in two hours -/

/-- A webhook whose key is `"a"`. -/
def keyA : Hook := { testHook with hashedSecret := "a" }

/-- The key `"b"` after one hour, and `"c"` after two. -/
def twoRotations : Rotations where
  created := keyA
  later := [⟨"b", 3600000000⟩, ⟨"c", 7200000000⟩]
  fresh := rfl
  first_ne := by decide
  later_ne := by decide
  increasing := by decide

/-- One rotation. -/
def oneRotation : Rotations where
  created := keyA
  later := [⟨"b", 3600000000⟩]
  fresh := rfl
  first_ne := by decide
  later_ne := by decide
  increasing := List.pairwise_singleton _ _

/-- The HMAC shows its key. -/
def plainEnv : WorkerEnv := ⟨fun key _ => key⟩

/-- An hour later, a signature with `"a"` is rejected, which was replaced two hours before. -/
theorem old_key_rejected :
    verifyWithRotation plainEnv 10800000000 twoRotations.hook "[]" (sign plainEnv "a" "[]")
      = false ∧
    ("a", 3600000000) ∈ twoRotations.replacedKeys ∧ 10800000000 < 3600000000 + gracePeriod := by
  decide +kernel

theorem overlap_iff_oneRotation : oneRotation.Counts 10800000000 "a" ∧
    verifyWithRotation plainEnv 10800000000 oneRotation.hook "[]" (sign plainEnv "a" "[]")
      = true := by
  have hcounts : oneRotation.Counts 10800000000 "a" :=
    .inr ⟨3600000000, List.mem_cons_self, by decide⟩
  refine ⟨hcounts, ((Rotations.overlap_iff fun body key key' heq => heq).mpr ?_ "a" "[]").mpr
    hcounts⟩
  intro key time hmem _
  cases List.mem_singleton.mp hmem
  exact .inr ⟨_, rfl⟩

end Stargate.Webhooks
