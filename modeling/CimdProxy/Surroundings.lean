import CimdProxy.Effects
import CimdProxy.JsonRoundTrip
import CimdProxy.UrlSplit
import CimdProxy.Digest

/-! # The surroundings of the proxy

What the proxy asks of everything outside its own code, as the operations of a `Signature`: clocks,
randomness, Fernet, the document cache, the resolver, HTTP, and the statements of the token table.
`World.perform` says which replies are possible.

* Fernet is ideal: `World.fernet` is the log of what was encrypted.  A string decrypts only when it
  is in the log, and then to what was encrypted, subject to the time-to-live.
* The document cache is `TtlCache`: an entry is dropped when it is read at or after its expiry.
* The token table follows the SQL statements, each one atomic: a failed statement changes nothing,
  an insert obeys the keys and CHECK constraints of the schema.
* Clock readings, random bytes, resolver answers and HTTP replies are whatever the schedule
  proposes. -/

namespace CimdProxy

open Py Effects

/-- What the interpreter and its libraries provide and the model takes as given. -/
class Platform extends UnicodeData where
  /-- Binary floats, read from text, and the test `not (x <= 0)`. -/
  Float : Type
  floatOf : Str → Option Float
  isPositive : Float → Bool
  /-- RSA private keys. -/
  PrivateKey : Type
  keySize : PrivateKey → ℕ
  modulus : PrivateKey → ℕ
  exponent : PrivateKey → ℕ
  /-- RSASSA-PKCS1-v1_5 with SHA-256. -/
  sign : PrivateKey → Bytes → Bytes
  /-- `load_pem_private_key(pem, password=None)`: `none` for a `ValueError` or `TypeError`, `some none`
  for a key that is not RSA. -/
  loadPem : Bytes → Option (Option PrivateKey)
  /-- The classification attributes of `ipaddress`, by their names. -/
  ipAttr : Str → IpAddress → Bool

/-- A textbook RSA key. -/
structure RsaKey where
  modulus : ℕ
  exponent : ℕ
  secret : ℕ

/-- The encoded message of RSASSA-PKCS1-v1_5 with SHA-256, for a modulus of `k` bytes. -/
def pkcs1Encode (k : ℕ) (m : Bytes) : Bytes :=
  let info : Bytes := [0x30, 0x31, 0x30, 0x0d, 0x06, 0x09, 0x60, 0x86, 0x48, 0x01, 0x65, 0x03, 0x04,
    0x02, 0x01, 0x05, 0x00, 0x04, 0x20] ++ sha256 m
  [0x00, 0x01] ++ List.replicate (k - info.length - 3) 0xff ++ [0x00] ++ info

def RsaKey.sign (key : RsaKey) (m : Bytes) : Bytes :=
  let k := (key.modulus.size + 7) / 8
  let n := (pkcs1Encode k m).foldl (fun acc b => 256 * acc + b.toNat) 0
  bigEndian k (n ^ key.secret % key.modulus)

/-- A platform that is right about ASCII text, whole-number floats and public addresses, and knows
one key. -/
@[reducible] def Platform.plain : Platform where
  toUnicodeData := UnicodeData.inert
  Float := ℤ
  floatOf := @intOf UnicodeData.inert
  isPositive := fun x => decide (0 < x)
  PrivateKey := RsaKey
  keySize := fun k => k.modulus.size
  modulus := RsaKey.modulus
  exponent := RsaKey.exponent
  sign := RsaKey.sign
  loadPem := fun pem => if pem.isEmpty then none else some (some ⟨2 ^ 2048 - 1, 65537, 1⟩)
  ipAttr := fun _ _ => false

/-! ### Exceptions and responses -/

/-- `FetchError` and its two subclasses. -/
inductive FetchKind where
  | fetchError
  | ssrfRefused
  | documentInvalid
deriving DecidableEq

/-- The exceptions raised in the proxy. -/
inductive Exc where
  | oauth (error description : Str) (status : ℕ)
  | management (status : ℕ) (error description : Str)
  | registration (error description : Str) (status : ℕ)
  | redirectUriRefused (msg : Str)
  | fetch (kind : FetchKind) (msg : Str)
  | envelope (msg : Str)
  | linkConflict (msg : Str)
  | config (msg : Str)
  | signingKey (msg : Str)
  | valueError (msg : Str)
  | typeError (msg : Str)
  | attributeError (msg : Str)
  | keyError (msg : Str)
  | overflowError (msg : Str)
  | database (msg : Str)
  | library (msg : Str)
deriving DecidableEq

def invalidRequest (description : Str) : Exc := .oauth "invalid_request" description 400

def invalidTarget (description : Str) : Exc := .oauth "invalid_target" description 400

def invalidClient (description : Str) : Exc := .oauth "invalid_client" description 400

def invalidGrant (description : Str) : Exc := .oauth "invalid_grant" description 400

def unsupportedGrantType (description : Str) : Exc :=
  .oauth "unsupported_grant_type" description 400

def serverError (description : Str) : Exc := .oauth "server_error" description 502

/-- An error that is answered with its own status is answered with 400 or more. -/
def Exc.IsFailure : Exc → Prop
  | .management status _ _ => 400 ≤ status
  | .oauth _ _ status => 400 ≤ status
  | _ => True

theorem serverError_isFailure (description : Str) : (serverError description).IsFailure := by
  change 400 ≤ 502
  decide

/-- `as_dict()` of an error. -/
def errorBody (error description : Str) : Json :=
  .obj [("error", .str error), ("error_description", .str description)]

/-- A value `json.loads` can return. -/
structure JsonValue where
  val : Json
  wf : val.WF

/-- The outcome of `.json()` on a request or response body. -/
inductive BodyJson where
  | value (v : JsonValue)
  | invalid (msg : Str)

inductive Response where
  | text (status : ℕ) (content : Str)
  | redirect (status : ℕ) (url : Str)
  | json (status : ℕ) (content : Json) (headers : List (Str × Str))
  | empty (status : ℕ)

def Response.status : Response → ℕ
  | .text s _ => s
  | .redirect s _ => s
  | .json s _ _ => s
  | .empty s => s

/-! ### Data that passes through the surroundings -/

structure CimdDocument where
  clientId : Str
  redirectUris : List Str
  raw : Dict
  cacheControl : Option Str

/-- Microseconds since 1970 in UTC. -/
abbrev Datetime : Type := ℤ

abbrev Uuid : Type := Fin (2 ^ 128)

instance neZeroUuids : NeZero (2 ^ 128) := ⟨by decide⟩

structure PatRecord where
  id : Uuid
  tenant : Str
  realmIssuer : Str
  ownerSub : Str
  name : Str
  resources : List Str
  scopes : List Str
  createdAt : Datetime
  expiresAt : Datetime
  lastUsedAt : Option Datetime
  revokedAt : Option Datetime
deriving DecidableEq

inductive Method where
  | get
  | post
deriving DecidableEq

/-- A request to the upstream: a form, a JSON body, basic or bearer credentials. -/
structure HttpRequest where
  method : Method
  url : Str
  form : List (Str × Json)
  json : Option Json
  basic : Option (Str × Str)
  bearer : Option Str

/-- What `httpx` makes of an upstream request; `httpError` carries the exception's class name and
text, `raised` stands for an exception outside `httpx.HTTPError`. -/
inductive HttpOutcome where
  | response (status : ℕ) (body : BodyJson)
  | httpError (name text : Str)
  | raised (msg : Str)

/-- The pinned GET of a client metadata document. -/
inductive GetOutcome where
  | response (status : ℕ) (body : Bytes) (cacheControl : Option Str)
  | httpError (text : Str)
  | raised (msg : Str)

/-- The answer of `socket.getaddrinfo`: the addresses, a `gaierror`, or a `UnicodeError` for a host
name IDNA cannot encode. -/
inductive AddrInfo where
  | infos (addresses : List Str)
  | gaierror
  | unicodeError (msg : Str)

/-- A reading of `time.time()`, a finite float. -/
structure Seconds where
  val : ℚ
  finite : |val| < 2 ^ 1024

/-- `int(t)` of a clock reading. -/
def Seconds.whole (t : Seconds) : ℤ := if 0 ≤ t.val then ⌊t.val⌋ else ⌈t.val⌉

/-- What `Fernet.encrypt(blob).decode("ascii")` returns, and the second it stamped into it. -/
structure FernetToken where
  text : Str
  ascii : isAscii text = true
  stamp : ℤ

/-! ### Operations -/

inductive Op where
  | time
  | tokenBytes (n : ℕ)
  | uuid4
  | utcnow
  | fernetEncrypt (blob : Bytes)
  | fernetDecrypt (token : Str) (ttl : Option ℕ)
  | cacheGet (key : Str)
  | cachePut (key : Str) (value : CimdDocument) (ttl : ℤ)
  | getaddrinfo (host : Str)
  | pinnedGet (url host sni : Str)
  | http (req : HttpRequest)
  | insert (record : PatRecord) (tokenHash : Bytes)
  | findByHash (tokenHash : Bytes)
  | listForOwner (realmIssuer ownerSub : Str)
  | revoke (realmIssuer ownerSub : Str) (tokenId : Uuid)
  | touch (tokenId : Uuid) (usedAt : Datetime)

/-- The type of the reply.  The codec and the cache read a clock of their own, `now()` is the
clock of the database; these readings are part of the reply. -/
def Reply : Op → Type
  | .time => Seconds
  | .tokenBytes n => {b : Bytes // b.length = n}
  | .uuid4 => Uuid
  | .utcnow => Datetime
  | .fernetEncrypt _ => FernetToken
  | .fernetDecrypt _ _ => ℤ × Option Bytes
  | .cacheGet _ => ℚ × Option CimdDocument
  | .cachePut _ _ _ => ℚ
  | .getaddrinfo _ => AddrInfo
  | .pinnedGet _ _ _ => GetOutcome
  | .http _ => HttpOutcome
  | .insert _ _ => Except Str Unit
  | .findByHash _ => Except Str (Option PatRecord)
  | .listForOwner _ _ => Except Str (List PatRecord)
  | .revoke _ _ _ => Except Str (Bool × Datetime)
  | .touch _ _ => Except Str Unit

/-- The operations of the proxy. -/
abbrev proxyOps : Signature := ⟨Op, Reply⟩

/-- A program of the proxy. -/
abbrev Run (α : Type) : Type := Prog proxyOps Exc α

theorem length_zeros (n : ℕ) : (List.replicate n (0 : UInt8)).length = n := List.length_replicate

/-- The dullest reply: nothing is found, nothing answers, every clock stands at zero. -/
def idleReply : (o : Op) → Reply o
  | .time => (⟨0, by norm_num⟩ : Seconds)
  | .tokenBytes n => ⟨List.replicate n 0, length_zeros n⟩
  | .uuid4 => (0 : Uuid)
  | .utcnow => (0 : ℤ)
  | .fernetEncrypt _ => (⟨"gAAAAA", by decide, 0⟩ : FernetToken)
  | .fernetDecrypt _ _ => ((0 : ℤ), none)
  | .cacheGet _ => ((0 : ℚ), none)
  | .cachePut _ _ _ => (0 : ℚ)
  | .getaddrinfo _ => AddrInfo.gaierror
  | .pinnedGet _ _ _ => GetOutcome.httpError ""
  | .http _ => HttpOutcome.httpError "ConnectError" ""
  | .insert _ _ => .ok ()
  | .findByHash _ => .ok none
  | .listForOwner _ _ => .ok []
  | .revoke _ _ _ => .ok (false, 0)
  | .touch _ _ => .ok ()

/-- Ask the surroundings. -/
def ask (o : Op) : Run (Reply o) := Prog.perform (S := proxyOps) o

@[simp] theorem ask_bind {α : Type} (o : Op) (f : Reply o → Run α) :
    (ask o).bind f = .call o f := rfl

/-- The operation `o` with its reply. -/
abbrev did (o : Op) (r : Reply o) : Call proxyOps := ⟨o, r⟩

/-- `int(time.time())`. -/
def wholeTime : Run ℤ := Prog.call (S := proxyOps) .time (fun t => .ret (Seconds.whole t))

section Rules

variable {α : Type} {Q : Trace proxyOps → Op → Prop} {R : Trace proxyOps → Except Exc α → Prop}
  {t : Trace proxyOps}

theorem sat_ask_bind {o : Op} {f : Reply o → Run α} (hq : Q t o)
    (hf : ∀ r, (f r).Sat Q R (did o r :: t)) : ((ask o).bind f).Sat Q R t := ⟨hq, hf⟩

theorem sat_wholeTime_bind {f : ℤ → Run α} (hq : Q t .time)
    (hf : ∀ now : Seconds, (f now.whole).Sat Q R (did .time now :: t)) :
    (wholeTime.bind f).Sat Q R t := ⟨hq, hf⟩

end Rules

def Op.isSeal : Op → Bool
  | .fernetEncrypt _ => true
  | _ => false

def Op.isLookup : Op → Bool
  | .findByHash _ => true
  | _ => false

def Op.isHttp : Op → Bool
  | .http _ => true
  | _ => false

def Op.isTouch : Op → Bool
  | .touch _ _ => true
  | _ => false

/-- No operation of a kind has been performed so far. -/
def Free (kind : Op → Bool) (t : Trace proxyOps) : Prop := ∀ c ∈ t, kind c.1 = false

theorem Free.nil {kind : Op → Bool} : Free kind [] := fun _ h => nomatch h

theorem Free.cons {kind : Op → Bool} {t : Trace proxyOps} (h : Free kind t) {o : Op}
    (ho : kind o = false) (r : Reply o) : Free kind (did o r :: t) := by
  intro c hc
  rcases List.mem_cons.mp hc with rfl | hc
  · exact ho
  · exact h c hc

theorem Free.not_mem {kind : Op → Bool} {t : Trace proxyOps} (h : Free kind t) {o : Op} (r : Reply o)
    (ho : kind o = true) : did o r ∉ t := by
  intro hm
  have := h _ hm
  rw [ho] at this
  cases this

/-- Nothing has been encrypted so far. -/
abbrev NoSeal (t : Trace proxyOps) : Prop := Free Op.isSeal t

/-! ### Fernet -/

/-- One encrypted blob. -/
structure Sealed where
  token : Str
  blob : Bytes
  stamp : ℤ
deriving DecidableEq

/-- `_MAX_CLOCK_SKEW` of Fernet. -/
def maxClockSkew : ℤ := 60

/-- Whether a token stamped at `stamp` passes the time checks at `now`. -/
def withinTtl (ttl : Option ℕ) (stamp now : ℤ) : Bool :=
  match ttl with
  | none => true
  | some ttl => !(decide (stamp + ttl < now) || decide (now + maxClockSkew < stamp))

/-- `Fernet.decrypt`; `none` is the `InvalidToken`. -/
def fernetOpen (log : List Sealed) (token : Str) (ttl : Option ℕ) (now : ℤ) : Option Bytes :=
  match log.find? (fun s => s.token == token) with
  | none => none
  | some s => if withinTtl ttl s.stamp now then some s.blob else none

/-! ### The document cache -/

structure CacheEntry where
  key : Str
  value : CimdDocument
  expiresAt : ℚ

/-- `TtlCache.get` at the clock reading `now`. -/
def cacheRead (entries : List CacheEntry) (key : Str) (now : ℚ) :
    Option CimdDocument × List CacheEntry :=
  match entries.find? (fun e => e.key == key) with
  | none => (none, entries)
  | some e =>
      if e.expiresAt ≤ now then (none, entries.filter (fun e => e.key != key))
      else (some e.value, entries)

/-- `TtlCache.put` at the clock reading `now`. -/
def cacheWrite (entries : List CacheEntry) (key : Str) (value : CimdDocument) (ttl : ℤ) (now : ℚ) :
    List CacheEntry :=
  if ttl ≤ 0 then entries else ⟨key, value, now + ttl⟩ :: entries.filter (fun e => e.key != key)

/-! ### The token table -/

/-- A row: the columns of the listing, and the hash. -/
structure Row where
  record : PatRecord
  tokenHash : Bytes
deriving DecidableEq

/-- The CHECK constraints of the table. -/
def Row.satisfiesChecks (r : Row) : Bool :=
  !r.record.tenant.isEmpty && decide (1 ≤ r.record.name.length ∧ r.record.name.length ≤ 100) &&
    r.tokenHash.length == 32 && !r.record.resources.isEmpty &&
    decide (r.record.createdAt < r.record.expiresAt)

/-- What `INSERT` writes: the two columns it does not name are NULL. -/
def newRow (record : PatRecord) (hash : Bytes) : Row :=
  ⟨{ record with lastUsedAt := none, revokedAt := none }, hash⟩

/-- Whether the primary key, the unique hash and the CHECKs admit a row. -/
def admits (table : List Row) (r : Row) : Bool :=
  r.satisfiesChecks && table.all (fun x => x.record.id != r.record.id && x.tokenHash != r.tokenHash)

/-- `ORDER BY created_at, id`. -/
def listOrder (a b : PatRecord) : Prop :=
  a.createdAt < b.createdAt ∨ (a.createdAt = b.createdAt ∧ a.id ≤ b.id)

instance : DecidableRel listOrder := fun _ _ =>
  inferInstanceAs (Decidable (_ ∨ (_ ∧ _)))

def selectByHash (table : List Row) (hash : Bytes) : Option PatRecord :=
  (table.find? (fun r => r.tokenHash == hash)).map Row.record

def selectForOwner (table : List Row) (realm owner : Str) : List PatRecord :=
  ((table.filter (fun r => r.record.realmIssuer == realm && r.record.ownerSub == owner)).map
    Row.record).insertionSort listOrder

/-- The `WHERE` clause of the revocation. -/
def revocable (realm owner : Str) (id : Uuid) (r : Row) : Bool :=
  r.record.id == id && r.record.realmIssuer == realm && r.record.ownerSub == owner &&
    r.record.revokedAt.isNone

def updateRevoked (table : List Row) (realm owner : Str) (id : Uuid) (now : Datetime) : List Row :=
  table.map (fun r => if revocable realm owner id r then
    { r with record := { r.record with revokedAt := some now } } else r)

def updateLastUsed (table : List Row) (id : Uuid) (usedAt : Datetime) : List Row :=
  table.map (fun r => if r.record.id == id then
    { r with record := { r.record with lastUsedAt := some usedAt } } else r)

/-! ### The world -/

structure World where
  fernet : List Sealed
  cache : List CacheEntry
  table : List Row

def World.init : World := ⟨[], [], []⟩

/-- What the world makes of an operation when a reply is proposed.  The answer of Fernet, of the
cache and of a query is computed; a failure of the database may be proposed for every statement and
leaves the table as it is. -/
def World.perform (w : World) : (o : Op) → Reply o → Option (Reply o × World)
  | .time, r => some (r, w)
  | .tokenBytes _, r => some (r, w)
  | .uuid4, r => some (r, w)
  | .utcnow, r => some (r, w)
  | .fernetEncrypt blob, r =>
      match w.fernet.find? (fun s => s.token == r.text) with
      | none => some (r, { w with fernet := ⟨r.text, blob, r.stamp⟩ :: w.fernet })
      | some s => if s.blob = blob ∧ s.stamp = r.stamp then some (r, w) else none
  | .fernetDecrypt token ttl, r => some ((r.1, fernetOpen w.fernet token ttl r.1), w)
  | .cacheGet key, r =>
      some ((r.1, (cacheRead w.cache key r.1).1), { w with cache := (cacheRead w.cache key r.1).2 })
  | .cachePut key value ttl, now =>
      some (now, { w with cache := cacheWrite w.cache key value ttl now })
  | .getaddrinfo _, r => some (r, w)
  | .pinnedGet _ _ _, r => some (r, w)
  | .http _, r => some (r, w)
  | .insert _ _, .error e => some (.error e, w)
  | .insert record hash, .ok _ =>
      if admits w.table (newRow record hash) then
        some (.ok (), { w with table := newRow record hash :: w.table })
      else none
  | .findByHash _, .error e => some (.error e, w)
  | .findByHash hash, .ok _ => some (.ok (selectByHash w.table hash), w)
  | .listForOwner _ _, .error e => some (.error e, w)
  | .listForOwner realm owner, .ok _ => some (.ok (selectForOwner w.table realm owner), w)
  | .revoke _ _ _, .error e => some (.error e, w)
  | .revoke realm owner id, .ok r =>
      some (.ok ((w.table.countP (revocable realm owner id)) == 1, r.2),
        { w with table := updateRevoked w.table realm owner id r.2 })
  | .touch _ _, .error e => some (.error e, w)
  | .touch id usedAt, .ok _ =>
      some (.ok (), { w with table := updateLastUsed w.table id usedAt })

/-! ### What an operation changes -/

theorem World.perform_fernetDecrypt (w : World) (token : Str) (ttl : Option ℕ)
    (p : Reply (.fernetDecrypt token ttl)) :
    w.perform (.fernetDecrypt token ttl) p = some ((p.1, fernetOpen w.fernet token ttl p.1), w) := rfl

/-- After an encryption the log has the blob under the token. -/
theorem World.perform_fernetEncrypt {w w' : World} {blob : Bytes} {p r : Reply (.fernetEncrypt blob)}
    (h : w.perform (.fernetEncrypt blob) p = some (r, w')) :
    ∃ s, s.blob = blob ∧ s.token = FernetToken.text r ∧ s.stamp = FernetToken.stamp r ∧
      w'.fernet.find? (fun x => x.token == FernetToken.text r) = some s := by
  simp only [World.perform] at h
  split at h
  · obtain ⟨rfl, rfl⟩ := Prod.mk.inj (Option.some.inj h)
    exact ⟨⟨p.text, blob, p.stamp⟩, rfl, rfl, rfl, by simp⟩
  · next s hs =>
      split_ifs at h with hc
      obtain ⟨rfl, rfl⟩ := Prod.mk.inj (Option.some.inj h)
      exact ⟨s, hc.1, by simpa using List.find?_some hs, hc.2, hs⟩

section Frames

variable {w w' : World} {o : Op} {p r : Reply o}

/-- Everything an operation can do to the world. -/
theorem World.perform_cases (h : w.perform o p = some (r, w')) :
    w' = w ∨
    (∃ (blob : Bytes) (token : FernetToken), did o r = did (.fernetEncrypt blob) token ∧
      w.fernet.find? (fun x => x.token == token.text) = none ∧
      w' = { w with fernet := ⟨token.text, blob, token.stamp⟩ :: w.fernet }) ∨
    (∃ (key : Str) (now : ℚ), did o r = did (.cacheGet key) (now, (cacheRead w.cache key now).1) ∧
      w' = { w with cache := (cacheRead w.cache key now).2 }) ∨
    (∃ (key : Str) (value : CimdDocument) (ttl : ℤ) (now : ℚ),
      did o r = did (.cachePut key value ttl) now ∧
      w' = { w with cache := cacheWrite w.cache key value ttl now }) ∨
    (∃ (record : PatRecord) (hash : Bytes), did o r = did (.insert record hash) (.ok ()) ∧
      admits w.table (newRow record hash) = true ∧
      w' = { w with table := newRow record hash :: w.table }) ∨
    (∃ (realm owner : Str) (id : Uuid) (at_ : Datetime), did o r = did (.revoke realm owner id)
        (.ok ((w.table.countP (revocable realm owner id)) == 1, at_)) ∧
      w' = { w with table := updateRevoked w.table realm owner id at_ }) ∨
    (∃ (id : Uuid) (at_ : Datetime), did o r = did (.touch id at_) (.ok ()) ∧
      w' = { w with table := updateLastUsed w.table id at_ }) := by
  cases o with
  | fernetEncrypt blob =>
      simp only [World.perform] at h
      split at h
      · next hn =>
          obtain ⟨rfl, rfl⟩ := Prod.mk.inj (Option.some.inj h)
          exact .inr (.inl ⟨blob, p, rfl, hn, rfl⟩)
      · split_ifs at h
        obtain ⟨-, rfl⟩ := Prod.mk.inj (Option.some.inj h)
        exact .inl rfl
  | cacheGet key =>
      obtain ⟨rfl, rfl⟩ := Prod.mk.inj (Option.some.inj h)
      exact .inr (.inr (.inl ⟨key, p.1, rfl, rfl⟩))
  | cachePut key value ttl =>
      obtain ⟨rfl, rfl⟩ := Prod.mk.inj (Option.some.inj h)
      exact .inr (.inr (.inr (.inl ⟨key, value, ttl, p, rfl, rfl⟩)))
  | insert record hash =>
      cases p with
      | error e => cases h; exact .inl rfl
      | ok u =>
          simp only [World.perform] at h
          split_ifs at h with ha
          obtain ⟨rfl, rfl⟩ := Prod.mk.inj (Option.some.inj h)
          exact .inr (.inr (.inr (.inr (.inl ⟨record, hash, rfl, ha, rfl⟩))))
  | revoke realm owner id =>
      cases p with
      | error e => cases h; exact .inl rfl
      | ok q =>
          obtain ⟨rfl, rfl⟩ := Prod.mk.inj (Option.some.inj h)
          exact .inr (.inr (.inr (.inr (.inr (.inl ⟨realm, owner, id, q.2, rfl, rfl⟩)))))
  | touch id at_ =>
      cases p with
      | error e => cases h; exact .inl rfl
      | ok u =>
          obtain ⟨rfl, rfl⟩ := Prod.mk.inj (Option.some.inj h)
          exact .inr (.inr (.inr (.inr (.inr (.inr ⟨id, at_, rfl, rfl⟩)))))
  | findByHash hash => cases p <;> (cases h; exact .inl rfl)
  | listForOwner realm owner => cases p <;> (cases h; exact .inl rfl)
  | time => cases h; exact .inl rfl
  | tokenBytes n => cases h; exact .inl rfl
  | uuid4 => cases h; exact .inl rfl
  | utcnow => cases h; exact .inl rfl
  | fernetDecrypt token ttl => cases h; exact .inl rfl
  | getaddrinfo host => cases h; exact .inl rfl
  | pinnedGet url host sni => cases h; exact .inl rfl
  | http req => cases h; exact .inl rfl

/-- The Fernet log grows by encryption only, and never under a token it has. -/
theorem World.perform_fernet (h : w.perform o p = some (r, w')) :
    w'.fernet = w.fernet ∨
    ∃ (blob : Bytes) (token : FernetToken), did o r = did (.fernetEncrypt blob) token ∧
      w.fernet.find? (fun x => x.token == token.text) = none ∧
      w'.fernet = ⟨token.text, blob, token.stamp⟩ :: w.fernet := by
  rcases World.perform_cases h with rfl | ⟨blob, token, hc, hn, rfl⟩ | ⟨_, _, -, rfl⟩ |
    ⟨_, _, _, _, -, rfl⟩ | ⟨_, _, -, -, rfl⟩ | ⟨_, _, _, _, -, rfl⟩ | ⟨_, _, -, rfl⟩
  · exact .inl rfl
  · exact .inr ⟨blob, token, hc, hn, rfl⟩
  all_goals exact .inl rfl

/-- The cache changes by reads, which only drop entries, and by writes. -/
theorem World.perform_cache (h : w.perform o p = some (r, w')) :
    w'.cache = w.cache ∨
    (∃ (key : Str) (now : ℚ), did o r = did (.cacheGet key) (now, (cacheRead w.cache key now).1) ∧
      w'.cache = (cacheRead w.cache key now).2) ∨
    ∃ (key : Str) (value : CimdDocument) (ttl : ℤ) (now : ℚ),
      did o r = did (.cachePut key value ttl) now ∧
      w'.cache = cacheWrite w.cache key value ttl now := by
  rcases World.perform_cases h with rfl | ⟨_, _, -, -, rfl⟩ | ⟨key, now, hc, rfl⟩ |
    ⟨key, value, ttl, now, hc, rfl⟩ | ⟨_, _, -, -, rfl⟩ | ⟨_, _, _, _, -, rfl⟩ | ⟨_, _, -, rfl⟩
  · exact .inl rfl
  · exact .inl rfl
  · exact .inr (.inl ⟨key, now, hc, rfl⟩)
  · exact .inr (.inr ⟨key, value, ttl, now, hc, rfl⟩)
  all_goals exact .inl rfl

/-- The token table changes by the three statements that write it. -/
theorem World.perform_table (h : w.perform o p = some (r, w')) :
    w'.table = w.table ∨
    (∃ (record : PatRecord) (hash : Bytes), did o r = did (.insert record hash) (.ok ()) ∧
      admits w.table (newRow record hash) = true ∧ w'.table = newRow record hash :: w.table) ∨
    (∃ (realm owner : Str) (id : Uuid) (at_ : Datetime), did o r = did (.revoke realm owner id)
        (.ok ((w.table.countP (revocable realm owner id)) == 1, at_)) ∧
      w'.table = updateRevoked w.table realm owner id at_) ∨
    (∃ (id : Uuid) (at_ : Datetime), did o r = did (.touch id at_) (.ok ()) ∧
      w'.table = updateLastUsed w.table id at_) := by
  rcases World.perform_cases h with rfl | ⟨_, _, -, -, rfl⟩ | ⟨_, _, -, rfl⟩ | ⟨_, _, _, _, -, rfl⟩ |
    ⟨record, hash, hc, ha, rfl⟩ | ⟨realm, owner, id, at_, hc, rfl⟩ | ⟨id, at_, hc, rfl⟩
  · exact .inl rfl
  · exact .inl rfl
  · exact .inl rfl
  · exact .inl rfl
  · exact .inr (.inl ⟨record, hash, hc, ha, rfl⟩)
  · exact .inr (.inr (.inl ⟨realm, owner, id, at_, hc, rfl⟩))
  · exact .inr (.inr (.inr ⟨id, at_, hc, rfl⟩))

/-- What was encrypted stays. -/
theorem World.perform_find? (h : w.perform o p = some (r, w')) {token : Str} {s : Sealed}
    (hs : w.fernet.find? (fun x => x.token == token) = some s) :
    w'.fernet.find? (fun x => x.token == token) = some s := by
  rcases World.perform_fernet h with he | ⟨blob, tok, -, hx, he⟩
  · rw [he]; exact hs
  · have hne : (tok.text == token) = false := by
      by_contra hc
      have : tok.text = token := by simpa using hc
      rw [this, hs] at hx
      cases hx
    rw [he, List.find?_cons_of_neg (by simp [hne])]
    exact hs

/-- One world can become another. -/
def World.Later : World → World → Prop :=
  Relation.ReflTransGen (fun a b => ∃ (o : Op) (p r : Reply o), a.perform o p = some (r, b))

theorem World.Later.find? (h : World.Later w w') {token : Str} {s : Sealed}
    (hs : w.fernet.find? (fun x => x.token == token) = some s) :
    w'.fernet.find? (fun x => x.token == token) = some s := by
  induction h with
  | refl => exact hs
  | tail _ hstep ih =>
      obtain ⟨o, p, r, hstep⟩ := hstep
      exact World.perform_find? hstep ih

end Frames

end CimdProxy
