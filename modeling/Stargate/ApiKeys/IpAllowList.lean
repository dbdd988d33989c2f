import Stargate.Base.NumberText
import Stargate.Schema

/-!
# API keys and their allow lists (`ApiKeyGuard`, `ApiKeysService.validate`)

The guard reads a key from the `Authorization` header and an address from
`X-Forwarded-For`, or from the connection where that header is absent. The service looks the
key up, stamps its last use and checks the address against the list of the key.

- `ipMatchesCidr`: one entry of a list, with the numbers of ECMAScript;
- `canActivate`: the decision, and the table after it;
- `canActivate_ok_iff`: what a request that passes has;
- `decides_alike`: of all headers, the decision depends on these two only;
- `header_lifts_restriction`: on `X-Forwarded-For` it does depend.
-/

namespace Stargate.ApiKeys

open Base

/-- `ApiKeyScope`. -/
inductive ApiKeyScope where
  | readOnly | webhooks | fullAccess
  deriving DecidableEq

/-- The text of a scope. -/
def ApiKeyScope.code : ApiKeyScope → String
  | .readOnly => "read_only"
  | .webhooks => "webhooks"
  | .fullAccess => "full_access"

/-- `SCOPE_RANK`. -/
def scopeRank : ApiKeyScope → Nat
  | .readOnly => 1
  | .webhooks => 2
  | .fullAccess => 3

/-- A row of `api_keys`. -/
structure ApiKey where
  id : Uuid
  merchantId : Uuid
  name : String
  keyHash : String
  keyPrefix : String
  scope : ApiKeyScope
  lastUsedAt : Option Timestamp
  expiresAt : Option Timestamp
  revokedAt : Option Timestamp
  allowedIps : Option (List String)
  createdAt : Timestamp
  deriving DecidableEq

/-- `PRIMARY KEY (id)`, `UNIQUE (key_hash)`. -/
instance keyedApiKey : Keyed ApiKey where
  Key := Uuid × String
  key k := (k.id, k.keyHash)
  Clash a b := a.1 = b.1 ∨ a.2 = b.2
  clash_symm := Or.imp Eq.symm Eq.symm
  decClash _ _ := inferInstanceAs (Decidable (_ ∨ _))

/-! ## Addresses -/

/-- `parseInt(text, 10)`. -/
def parseInt (cs : List Char) : JsNumber :=
  let digits := fun (sign : Int) (ds : List Char) =>
    match (spanDigits ds).1 with
    | [] => .nan
    | ds => .ofRat ((sign * (Nat.ofDigitChars 10 ds 0 : Nat) : Int) : ℚ)
  match cs.dropWhile isSpace with
  | '-' :: ds => digits (-1) ds
  | '+' :: ds => digits 1 ds
  | ds => digits 1 ds

/-- The 32 bits that the bitwise operators make of a number. -/
def toInt32 : JsNumber → BitVec 32
  | .finite x => BitVec.ofInt 32 (x.num.tdiv x.den)
  | _ => 0

/-- `32 - x`. -/
def minus32 : JsNumber → JsNumber
  | .finite x => .ofRat (32 - x)
  | .infinity negative => .infinity (!negative)
  | .nan => .nan

/-- `parts.reduce((acc, p) => ((acc << 8) | p) >>> 0, 0) >>> 0`. -/
def ipNumber (parts : List JsNumber) : BitVec 32 :=
  parts.foldl (fun acc p => (acc <<< 8) ||| toInt32 p) 0

/-- `prefixLen === 0 ? 0 : (~0 << (32 - prefixLen)) >>> 0`. A shift is by five bits. -/
def cidrMask (prefixLen : JsNumber) : BitVec 32 :=
  if prefixLen = .finite 0 then 0
  else BitVec.allOnes 32 <<< ((toInt32 (minus32 prefixLen)).toNat % 32)

/-- `ipMatchesCidr(ip, cidr)`. -/
def ipMatchesCidr (ip cidr : String) : Bool :=
  match cidr.toList.splitOn '/' with
  | range :: bits :: _ =>
    let ipParts := (ip.toList.splitOn '.').map JsNumber.ofText
    let rangeParts := (range.splitOn '.').map JsNumber.ofText
    if ipParts.length ≠ 4 ∨ rangeParts.length ≠ 4 then false
    else
      let mask := cidrMask (parseInt bits)
      ipNumber ipParts &&& mask == ipNumber rangeParts &&& mask
  -- no '/' in the entry
  | _ => ip == cidr

/-- `isIpAllowed(clientIp, allowedIps)`. -/
def isIpAllowed (clientIp : Option String) (allowedIps : Option (List String)) : Bool :=
  match allowedIps with
  | none | some [] => true
  | some allowedIps =>
    match clientIp.filter (· ≠ "") with
    | none => false
    | some ip => allowedIps.any fun cidr => ipMatchesCidr ip cidr

/-! ## A request -/

/-- A request: its headers, by lower-case names, `req.ip` and `req.socket?.remoteAddress`. -/
structure Request where
  headers : String → Option String
  ip : Option String
  remoteAddress : Option String

inductive GuardError where
  | unauthorized (message : String)
  | forbidden (message : String)
  deriving DecidableEq

/-- `req.user`. -/
structure ApiUser where
  merchantId : Uuid
  scope : ApiKeyScope
  deriving DecidableEq

/-- The key in the `Authorization` header. -/
def rawKey (r : Request) : Except GuardError String :=
  match r.headers "authorization" with
  | none => .error (.unauthorized "Missing API key")
  | some header =>
    if "Bearer ".toList.isPrefixOf header.toList then
      let raw := header.toList.drop 7
      if "sk_".toList.isPrefixOf raw then .ok (String.ofList raw)
      else .error (.unauthorized "Not an API key")
    else .error (.unauthorized "Missing API key")

/-- `forwarded?.split(',')[0]?.trim()`. -/
def forwardedFor (r : Request) : Option String :=
  (r.headers "x-forwarded-for").map fun text => String.ofList (trim (before ',' text.toList))

/-- The address of the connection. -/
def peer (r : Request) : Option String := r.ip.or r.remoteAddress

/-- The address that the guard hands to `validate`. -/
def clientIp (r : Request) : Option String := (forwardedFor r).or (peer r)

/-- The row that `UPDATE api_keys` matches. -/
def usable (hash : String) (now : Timestamp) (k : ApiKey) : Bool :=
  k.keyHash == hash && k.revokedAt.isNone && k.expiresAt.all fun expiresAt => now < expiresAt

def stampUse (now : Timestamp) (k : ApiKey) : ApiKey := { k with lastUsedAt := some now }

theorem key_stampUse (now : Timestamp) (k : ApiKey) :
    Keyed.key (stampUse now k) = Keyed.key k := rfl

/-- `validate(rawKey, clientIp)`, for the hash of the key. -/
def validate (now : Timestamp) (keys : Table ApiKey) (hash : String) (clientIp : Option String) :
    Except GuardError ApiUser × Table ApiKey :=
  match keys.find? (usable hash now) with
  | none => (.error (.unauthorized "Invalid or expired API key"), keys)
  | some k =>
    let keys := keys.modify (usable hash now) (stampUse now) (key_stampUse now)
    if isIpAllowed clientIp k.allowedIps then (.ok ⟨k.merchantId, k.scope⟩, keys)
    else (.error (.forbidden "Client IP address is not permitted for this API key"), keys)

/-- `canActivate(context)`: what the request becomes, and the table after it. `sha256` is the
digest of a key, and `required` the scope of the handler. -/
def canActivate (sha256 : String → String) (required : Option ApiKeyScope) (now : Timestamp)
    (keys : Table ApiKey) (r : Request) : Except GuardError ApiUser × Table ApiKey :=
  match rawKey r with
  | .error e => (.error e, keys)
  | .ok raw =>
    match validate now keys (sha256 raw) (clientIp r) with
    | (.error e, keys) => (.error e, keys)
    | (.ok user, keys) =>
      if required.any fun required => scopeRank user.scope < scopeRank required then
        (.error (.unauthorized ("API key scope '" ++ user.scope.code ++ "' insufficient; requires '"
          ++ (required.map ApiKeyScope.code).getD "" ++ "'")), keys)
      else (.ok user, keys)

/-! ## What a decision depends on -/

section Decision

variable (sha256 : String → String) (required : Option ApiKeyScope) (now : Timestamp)
  {keys keys' : Table ApiKey} {r r' : Request} {hash raw : String} {ip : Option String}
  {user : ApiUser} {k : ApiKey}

/-- A key but for its last use. -/
def unstamped (k : ApiKey) : ApiKey := { k with lastUsedAt := none }

/-- The tables agree but for the last uses. -/
def SameKeys (keys keys' : Table ApiKey) : Prop :=
  keys'.rows.map unstamped = keys.rows.map unstamped

theorem SameKeys.find? (h : SameKeys keys keys') (hash : String) :
    (keys'.find? (usable hash now)).map unstamped =
      (keys.find? (usable hash now)).map unstamped := by
  have hunstamp : ∀ t : Table ApiKey, (t.find? (usable hash now)).map unstamped
      = (t.rows.map unstamped).find? (usable hash now) := by
    intro t
    rw [List.find?_map]
    rfl
  rw [hunstamp, hunstamp, h]

theorem sameKeys_stamp (p : ApiKey → Bool) :
    SameKeys keys (keys.modify p (stampUse now) (key_stampUse now)) := by
  show (keys.rows.map _).map unstamped = _
  rw [List.map_map]
  refine List.map_congr_left fun k _ => ?_
  show unstamped (if p k then stampUse now k else k) = unstamped k
  split
  · rfl
  · rfl

/-- A request changes last uses only. -/
theorem sameKeys_canActivate :
    SameKeys keys (canActivate sha256 required now keys r).2 := by
  have hvalidate : ∀ hash ip, SameKeys keys (validate now keys hash ip).2 := by
    intro hash ip
    unfold validate
    split
    · rfl
    · dsimp only
      split
      · exact sameKeys_stamp now _
      · exact sameKeys_stamp now _
  unfold canActivate
  split
  · rfl
  · next raw hraw =>
    have h := hvalidate (sha256 raw) (clientIp r)
    split
    · next heq => rwa [heq] at h
    · next heq =>
      rw [heq] at h
      split
      · exact h
      · exact h

/-- What `validate` answers does not depend on last uses. -/
theorem SameKeys.validate (h : SameKeys keys keys') :
    (validate now keys' hash ip).1 = (validate now keys hash ip).1 := by
  have hfind := h.find? now hash
  unfold ApiKeys.validate
  cases hk : keys.find? (usable hash now) with
  | none =>
    rw [hk, Option.map_none, Option.map_eq_none_iff] at hfind
    rw [hfind]
  | some k =>
    rw [hk, Option.map_some, Option.map_eq_some_iff] at hfind
    obtain ⟨k', hk', heq⟩ := hfind
    rw [hk']
    obtain ⟨_, hmerchant, _, _, _, hscope, _, _, _, hallowed, _⟩ := ApiKey.mk.inj heq
    dsimp only
    rw [hmerchant, hscope, hallowed]
    split
    · rfl
    · rfl

/-- The check of the scope. -/
def checkScope (required : Option ApiKeyScope) (user : ApiUser) : Except GuardError ApiUser :=
  if required.any fun required => scopeRank user.scope < scopeRank required then
    .error (.unauthorized ("API key scope '" ++ user.scope.code ++ "' insufficient; requires '"
      ++ (required.map ApiKeyScope.code).getD "" ++ "'"))
  else .ok user

/-- The decision by its three checks. -/
theorem canActivate_fst : (canActivate sha256 required now keys r).1
    = (rawKey r).bind fun raw => (validate now keys (sha256 raw) (clientIp r)).1.bind
        (checkScope required) := by
  unfold canActivate
  cases rawKey r with
  | error e => rfl
  | ok raw =>
    dsimp only [Except.bind]
    obtain ⟨res, keys'⟩ := validate now keys (sha256 raw) (clientIp r)
    cases res with
    | error e => rfl
    | ok user =>
      dsimp only [Except.bind, checkScope]
      split
      · rfl
      · rfl

/-- Two requests over one connection that agree on the two headers that the guard reads. -/
structure Alike (r r' : Request) : Prop where
  authorization : r'.headers "authorization" = r.headers "authorization"
  forwarded : r'.headers "x-forwarded-for" = r.headers "x-forwarded-for"
  ip : r'.ip = r.ip
  remoteAddress : r'.remoteAddress = r.remoteAddress

/-- **The decision depends on no other header**, nor on when the keys were last used. -/
theorem decides_alike (hr : Alike r r') (hkeys : SameKeys keys keys') :
    (canActivate sha256 required now keys' r').1 = (canActivate sha256 required now keys r).1 := by
  have hraw : rawKey r' = rawKey r := by rw [rawKey, rawKey, hr.authorization]
  have hclient : clientIp r' = clientIp r := by
    rw [clientIp, clientIp, forwardedFor, forwardedFor, peer, peer, hr.forwarded, hr.ip,
      hr.remoteAddress]
  rw [canActivate_fst, canActivate_fst, hraw, hclient]
  congr 1
  funext raw
  rw [hkeys.validate now]

theorem checkScope_ok_iff {u : ApiUser} : checkScope required u = .ok user ↔
    user = u ∧ ∀ scope, required = some scope → scopeRank scope ≤ scopeRank u.scope := by
  unfold checkScope
  cases required with
  | none =>
    constructor
    · intro h
      exact ⟨(Except.ok.inj h).symm, fun scope hscope => by cases hscope⟩
    · rintro ⟨rfl, -⟩
      rfl
  | some scope =>
    rw [Option.any_some]
    by_cases hlt : scopeRank u.scope < scopeRank scope
    · rw [if_pos (decide_eq_true hlt)]
      constructor
      · intro h
        cases h
      · intro h
        have hle := h.2 scope rfl
        omega
    · rw [if_neg (by simpa using hlt)]
      constructor
      · intro h
        refine ⟨(Except.ok.inj h).symm, ?_⟩
        rintro _ ⟨⟩
        omega
      · rintro ⟨rfl, -⟩
        rfl

theorem validate_ok_iff : (validate now keys hash ip).1 = .ok user ↔
    ∃ k, keys.find? (usable hash now) = some k ∧ isIpAllowed ip k.allowedIps = true ∧
      user = ⟨k.merchantId, k.scope⟩ := by
  unfold validate
  cases hk : keys.find? (usable hash now) with
  | none =>
    constructor
    · intro h
      cases h
    · rintro ⟨k, h, -⟩
      cases h
  | some k =>
    dsimp only
    by_cases hip : isIpAllowed ip k.allowedIps = true
    · rw [if_pos hip]
      constructor
      · intro h
        exact ⟨k, rfl, hip, (Except.ok.inj h).symm⟩
      · rintro ⟨_, ⟨⟩, -, rfl⟩
        rfl
    · rw [if_neg hip]
      constructor
      · intro h
        cases h
      · rintro ⟨_, ⟨⟩, hallowed, -⟩
        exact absurd hallowed hip

/-- **What a request that passes has**: a usable key, an address that its list allows, and the
scope. -/
theorem canActivate_ok_iff : (canActivate sha256 required now keys r).1 = .ok user ↔
    ∃ raw k, rawKey r = .ok raw ∧ keys.find? (usable (sha256 raw) now) = some k ∧
      isIpAllowed (clientIp r) k.allowedIps = true ∧ user = ⟨k.merchantId, k.scope⟩ ∧
      ∀ scope, required = some scope → scopeRank scope ≤ scopeRank k.scope := by
  rw [canActivate_fst]
  constructor
  · intro h
    cases hraw : rawKey r with
    | error e =>
      rw [hraw] at h
      cases h
    | ok raw =>
      rw [hraw] at h
      dsimp only [Except.bind] at h
      cases hvalid : (validate now keys (sha256 raw) (clientIp r)).1 with
      | error e =>
        rw [hvalid] at h
        cases h
      | ok valid =>
        rw [hvalid] at h
        obtain ⟨rfl, hrank⟩ := (checkScope_ok_iff required).mp h
        obtain ⟨k, hk, hip, rfl⟩ := (validate_ok_iff now).mp hvalid
        exact ⟨raw, k, rfl, hk, hip, rfl, hrank⟩
  · rintro ⟨raw, k, hraw, hk, hip, rfl, hrank⟩
    have hvalid := (validate_ok_iff now).mpr ⟨k, hk, hip, rfl⟩
    rw [hraw]
    dsimp only [Except.bind]
    rw [hvalid]
    exact (checkScope_ok_iff required).mpr ⟨rfl, hrank⟩

/-- The key of a request is the row with its hash. -/
theorem eq_of_find (hk : k ∈ keys) {k' : ApiKey} (hhash : hash = k.keyHash)
    (hfind : keys.find? (usable hash now) = some k') : k' = k := by
  obtain ⟨hmem, husable⟩ := Table.find?_some hfind
  simp only [usable, Bool.and_eq_true, beq_iff_eq] at husable
  exact Table.eq_of_conflict hmem hk (.inr (husable.1.1.trans hhash))

/-- **An IP restriction cannot be lifted by other headers.** For a key with an allow list, two
requests over one connection that differ in headers other than `Authorization` and
`X-Forwarded-For` get the same decision, also one after the other. The first element of
`X-Forwarded-For`, where that header is present, and else the address of the connection must be
allowed. -/
theorem restriction_kept {entries : List String} (hk : k ∈ keys)
    (hlist : k.allowedIps = some entries) (hraw : rawKey r = .ok raw)
    (hhash : sha256 raw = k.keyHash) (hr : Alike r r') :
    (canActivate sha256 required now keys r').1 = (canActivate sha256 required now keys r).1 ∧
    (canActivate sha256 required now (canActivate sha256 required now keys r).2 r').1
      = (canActivate sha256 required now keys r).1 ∧
    (isIpAllowed (clientIp r) (some entries) = false →
      ∀ user, (canActivate sha256 required now keys r').1 ≠ .ok user) ∧
    (r.headers "x-forwarded-for" = none → isIpAllowed (peer r) (some entries) = false →
      ∀ user, (canActivate sha256 required now keys r').1 ≠ .ok user) := by
  have hsame := decides_alike sha256 required now hr (rfl : SameKeys keys keys)
  have hdenied : isIpAllowed (clientIp r) (some entries) = false →
      ∀ user, (canActivate sha256 required now keys r').1 ≠ .ok user := by
    intro hip user hok
    rw [hsame] at hok
    obtain ⟨raw', k', hraw', hfind, hallowed, -⟩ := (canActivate_ok_iff sha256 required now).mp hok
    cases hraw.symm.trans hraw'
    rw [eq_of_find now hk hhash hfind, hlist, hip] at hallowed
    cases hallowed
  refine ⟨hsame, decides_alike _ _ _ hr (sameKeys_canActivate _ _ _), hdenied,
    fun hnone hip => hdenied ?_⟩
  rwa [clientIp, forwardedFor, hnone, Option.map_none, Option.none_or]

end Decision

/-! ## A key for one address -/

/-- A key that only `10.0.0.5` may use. -/
def restrictedKey : ApiKey where
  id := 1
  merchantId := 1
  name := "server"
  keyHash := "sk_1"
  keyPrefix := "sk_1"
  scope := .fullAccess
  lastUsedAt := none
  expiresAt := none
  revokedAt := none
  allowedIps := some ["10.0.0.5"]
  createdAt := 0

def restrictedKeys : Table ApiKey := ⟨[restrictedKey], List.pairwise_singleton _ _⟩

/-- A request with the key from `203.0.113.9`, with other headers. -/
def fromOutside (headers : List (String × String)) : Request where
  headers name := (("authorization", "Bearer sk_1") :: headers).lookup name
  ip := some "203.0.113.9"
  remoteAddress := some "203.0.113.9"

theorem restriction_kept_outside :
    restrictedKey ∈ restrictedKeys ∧ restrictedKey.allowedIps = some ["10.0.0.5"] ∧
    rawKey (fromOutside []) = .ok "sk_1" ∧
    Alike (fromOutside []) (fromOutside [("x-real-ip", "10.0.0.5")]) ∧
    (canActivate id none 0 restrictedKeys (fromOutside [("x-real-ip", "10.0.0.5")])).1
      = (canActivate id none 0 restrictedKeys (fromOutside [])).1 ∧
    ∀ user, (canActivate id none 0 restrictedKeys (fromOutside [("x-real-ip", "10.0.0.5")])).1
      ≠ .ok user := by
  have hk : restrictedKey ∈ restrictedKeys := List.mem_singleton.mpr rfl
  have hraw : rawKey (fromOutside []) = .ok "sk_1" := by decide +kernel
  have hr : Alike (fromOutside []) (fromOutside [("x-real-ip", "10.0.0.5")]) :=
    ⟨by decide +kernel, by decide +kernel, rfl, rfl⟩
  have h := restriction_kept id none 0 hk rfl hraw rfl hr
  exact ⟨hk, rfl, hraw, hr, h.1, h.2.2.2 (by decide +kernel) (by decide +kernel)⟩

/-- **`X-Forwarded-For` lifts the restriction**: the same request from an address that is not
allowed passes with that header. -/
theorem header_lifts_restriction :
    (canActivate id none 0 restrictedKeys (fromOutside [])).1
      = .error (.forbidden "Client IP address is not permitted for this API key") ∧
    isIpAllowed (peer (fromOutside [])) restrictedKey.allowedIps = false ∧
    (canActivate id none 0 restrictedKeys
      (fromOutside [("x-forwarded-for", "10.0.0.5, 203.0.113.9")])).1 = .ok ⟨1, .fullAccess⟩ := by
  decide +kernel

end Stargate.ApiKeys
