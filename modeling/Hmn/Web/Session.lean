/-
  Hmn.Web.Session — the cookie of a session of the web console.

  A cookie is the Base64 of `username:issued_at:signature`.  Whatever the
  browser sends is decoded; what fails on the way is no session.

  Main results: `session_check_iff` — the check answers, and rightly, exactly
  when no signature beyond ASCII reaches the comparison, and the cookie of a
  login is accepted until it expires; `foreign_signature_raises` — a cookie
  whose check raises.
-/
import Hmn.Framework.Codec
import Hmn.Framework.Decimal
import Hmn.Framework.Lines
import Hmn.Store.Store

namespace Hmn.Web

open Framework Framework.Text Framework.Sha256

/-! ## §1. The code. -/

/-- `SESSION_TTL_SECONDS`. -/
def sessionTtlSeconds : Int := 60 * 60 * 12

/-- The variables of the environment that `_session_secret` reads. -/
structure SessionEnv where
  /-- `HMN_WEB_SESSION_SECRET`. -/
  sessionSecret : Option String
  /-- `HMN_WEB_PASSWORD_HASH`. -/
  passwordHash : Option String

/-- `os.environ.get(name, "").strip()`. -/
def stripped (value : Option String) : String := strip (value.getD "")

/-- `_session_secret`. -/
def sessionSecret (env : SessionEnv) : Except PyError String :=
  let secret := stripped env.sessionSecret
  if secret ≠ "" then .ok secret
  else
    let adminHash := stripped env.passwordHash
    if adminHash ≠ "" then .ok adminHash
    else .error (.runtime "HMN_WEB_SESSION_SECRET or HMN_WEB_PASSWORD_HASH is required")

/-- `f"{username}:{issued_at}"`. -/
def payload (username : String) (issuedAt : Int) : String := s!"{username}:{issuedAt}"

/-- The signature of a payload. -/
def sign (secret payload : String) : String := hmacHexdigest (encode secret) (encode payload)

/-- `f"{payload}:{signature}"`. -/
def token (payload signature : String) : String := s!"{payload}:{signature}"

/-- `_session_cookie_value`. -/
def sessionCookieValue (username : String) (issuedAt : Int) (secret : String) : String :=
  let payload := payload username issuedAt
  String.ofList (Codec.urlsafeB64encode (encode (token payload (sign secret payload))))

/-- `value.encode("ascii")`, as characters. -/
def encodeAscii (value : String) : Option (List Char) :=
  if value.toList.all (·.toNat < 128) then some value.toList else none

/-- `username, issued_at_raw, signature = raw.rsplit(":", 2)` and the integer. -/
def readToken (raw : String) : Option (String × Int × String) :=
  match rsplit raw ':' 2 with
  | [username, issuedAtRaw, signature] =>
    (parseInt issuedAtRaw).map fun issuedAt => (username, issuedAt, signature)
  | _ => none

/-- `_decode_session_cookie`: nothing when anything on the way raises. -/
def decodeSessionCookie (value : String) : Option (String × Int × String) := do
  let cs ← encodeAscii value
  let bytes ← Codec.urlsafeB64decode cs
  let raw ← Codec.decode bytes
  readToken raw

def isAscii (s : String) : Bool := s.toList.all (·.toNat < 128)

/-- `hmac.compare_digest(a, b)` of two texts. -/
def compareDigest (a b : String) : Except PyError Bool :=
  if isAscii a && isAscii b then .ok (a == b)
  else .error (.type "comparing strings with non-ASCII characters is not supported")

/-- `_is_authenticated`, with the cookie of the request and the clock. -/
def isAuthenticated (env : SessionEnv) (cookie : Option String) (now : Int) :
    Except PyError Bool :=
  match cookie with
  | none => .ok false
  | some cookie =>
    if cookie = "" then .ok false
    else
      match decodeSessionCookie cookie with
      | none => .ok false
      | some (username, issuedAt, signature) =>
        if issuedAt + sessionTtlSeconds < now then .ok false
        else do
          let expected := sign (← sessionSecret env) (payload username issuedAt)
          compareDigest signature expected

/-! ## §2. What a session is. -/

/-- The cookie is the Base64 of the UTF-8 of `username:stamp:signature`, and
the stamp denotes the time. -/
def Decodes (cookie username : String) (issuedAt : Int) (signature : String) : Prop :=
  (∀ c ∈ cookie.toList, c.toNat < 128) ∧ ∃ bytes raw stamp,
    Codec.urlsafeB64decode cookie.toList = some bytes ∧ Codec.decode bytes = some raw
    ∧ raw.toList = username.toList ++ ':' :: (stamp.toList ++ ':' :: signature.toList)
    ∧ ':' ∉ stamp.toList ∧ ':' ∉ signature.toList ∧ parseInt stamp = some issuedAt

/-- The cookie is one of a session that is not over. -/
def IsSession (secret cookie : String) (now : Int) : Prop :=
  ∃ username issuedAt signature, Decodes cookie username issuedAt signature
    ∧ now ≤ issuedAt + sessionTtlSeconds
    ∧ signature = sign secret (payload username issuedAt)

/-- The check answers, and rightly. -/
def Checks (env : SessionEnv) (secret cookie : String) (now : Int) : Prop :=
  ∃ answer, isAuthenticated env (some cookie) now = .ok answer
    ∧ (answer = true ↔ IsSession secret cookie now)

/-- The cookie decodes to a time that is not over and a signature with a
character beyond ASCII. -/
def ForeignSignature (cookie : String) (now : Int) : Prop :=
  ∃ username issuedAt signature, Decodes cookie username issuedAt signature
    ∧ now ≤ issuedAt + sessionTtlSeconds ∧ ∃ c ∈ signature.toList, 128 ≤ c.toNat

/-- A reading of the clock, in seconds: the years of a date are four digits. -/
structure Clock where
  seconds : Int
  atLeast : -62135596800 ≤ seconds
  atMost : seconds ≤ 253402300799

/-! ## §3. Decoding. -/

theorem encodeAscii_eq_some {value : String} {cs : List Char} :
    encodeAscii value = some cs ↔ (∀ c ∈ value.toList, c.toNat < 128) ∧ value.toList = cs := by
  simp [encodeAscii]

theorem readToken_eq_some {raw username signature : String} {issuedAt : Int} :
    readToken raw = some (username, issuedAt, signature)
      ↔ ∃ stamp, raw.toList = username.toList ++ ':' :: (stamp.toList ++ ':' :: signature.toList)
        ∧ ':' ∉ stamp.toList ∧ ':' ∉ signature.toList ∧ parseInt stamp = some issuedAt := by
  have hpieces : (∃ stamp, raw.toList = username.toList ++ ':' :: (stamp.toList
        ++ ':' :: signature.toList) ∧ ':' ∉ stamp.toList ∧ ':' ∉ signature.toList
        ∧ parseInt stamp = some issuedAt)
      ↔ ∃ stamp, rsplit raw ':' 2 = [username, stamp, signature]
        ∧ parseInt stamp = some issuedAt := by
    simp only [rsplit_two_iff, and_assoc]
  rw [hpieces]
  unfold readToken
  split
  · rename_i username' stamp' signature' heq
    rw [heq]
    constructor
    · rintro h
      obtain ⟨n, hn, h⟩ := Option.map_eq_some_iff.mp h
      cases h
      exact ⟨stamp', rfl, hn⟩
    · rintro ⟨stamp, h, hn⟩
      cases h
      exact Option.map_eq_some_iff.mpr ⟨issuedAt, hn, rfl⟩
  · rename_i hne
    refine ⟨nofun, ?_⟩
    rintro ⟨stamp, heq, -⟩
    exact absurd heq (hne _ _ _)

theorem decodeSessionCookie_eq_some {cookie username signature : String} {issuedAt : Int} :
    decodeSessionCookie cookie = some (username, issuedAt, signature)
      ↔ Decodes cookie username issuedAt signature := by
  simp only [decodeSessionCookie, Option.bind_eq_bind, Option.bind_eq_some_iff,
    encodeAscii_eq_some, readToken_eq_some, Decodes]
  constructor
  · rintro ⟨_, ⟨hascii, rfl⟩, bytes, hbytes, raw, hraw, stamp, hrest⟩
    exact ⟨hascii, bytes, raw, stamp, hbytes, hraw, hrest⟩
  · rintro ⟨hascii, bytes, raw, stamp, hbytes, hraw, hrest⟩
    exact ⟨_, ⟨hascii, rfl⟩, bytes, hbytes, raw, hraw, stamp, hrest⟩

/-- A cookie decodes in one way only. -/
theorem Decodes.unique {cookie u u' g g' : String} {t t' : Int} (h : Decodes cookie u t g)
    (h' : Decodes cookie u' t' g') : u = u' ∧ t = t' ∧ g = g' := by
  rw [← decodeSessionCookie_eq_some] at h h'
  cases h.symm.trans h'
  exact ⟨rfl, rfl, rfl⟩

/-! ## §4. The signature is hexadecimal. -/

theorem digitChar_hex (n : Nat) :
    (Nat.digitChar n).toNat < 128 ∧ Nat.digitChar n ≠ ':' := by
  have hdigit : ∀ n < 16, (Nat.digitChar n).toNat < 128 ∧ Nat.digitChar n ≠ ':' := by decide
  by_cases h : n < 16
  · exact hdigit n h
  · rw [Nat.digitChar_eq_star.mpr (Nat.not_lt.mp h)]
    decide

theorem sign_hex (secret payload : String) :
    ∀ c ∈ (sign secret payload).toList, c.toNat < 128 ∧ c ≠ ':' := by
  intro c hc
  rw [sign, hmacHexdigest, hexdigest, hex, String.toList_ofList] at hc
  obtain ⟨b, -, hc⟩ := List.mem_flatMap.mp hc
  rcases List.mem_pair.mp hc with rfl | rfl
  · exact digitChar_hex _
  · exact digitChar_hex _

theorem isAscii_iff {s : String} : isAscii s = true ↔ ∀ c ∈ s.toList, c.toNat < 128 := by
  simp [isAscii]

theorem isAscii_sign (secret payload : String) : isAscii (sign secret payload) = true :=
  isAscii_iff.mpr fun c hc => (sign_hex secret payload c hc).1

theorem compareDigest_sign (signature secret payload : String) :
    compareDigest signature (sign secret payload) =
      if isAscii signature then .ok (signature == sign secret payload)
      else .error (.type "comparing strings with non-ASCII characters is not supported") := by
  rw [compareDigest, isAscii_sign, Bool.and_true]

/-! ## §5. The check. -/

section

variable {env : SessionEnv} {secret cookie : String} {now : Int}

theorem not_session_of_decode (h : decodeSessionCookie cookie = none) :
    ¬ IsSession secret cookie now := by
  rintro ⟨username, issuedAt, signature, hdecodes, -⟩
  rw [decodeSessionCookie_eq_some.mpr hdecodes] at h
  cases h

theorem decodeSessionCookie_empty : decodeSessionCookie "" = none := by decide +kernel

/-- The check of a cookie that decodes. -/
theorem isAuthenticated_decodes {username signature : String} {issuedAt : Int}
    (hsecret : sessionSecret env = .ok secret) (h : Decodes cookie username issuedAt signature) :
    isAuthenticated env (some cookie) now =
      if issuedAt + sessionTtlSeconds < now then .ok false
      else compareDigest signature (sign secret (payload username issuedAt)) := by
  have hdecode := decodeSessionCookie_eq_some.mpr h
  have hne : cookie ≠ "" := by
    rintro rfl
    rw [decodeSessionCookie_empty] at hdecode
    cases hdecode
  simp only [isAuthenticated, if_neg hne, hdecode, hsecret]
  rfl

theorem isAuthenticated_undecodable (h : decodeSessionCookie cookie = none) :
    isAuthenticated env (some cookie) now = .ok false := by
  simp only [isAuthenticated, h, ite_self]

/-- One cookie that decodes is a session if it is not over and signed. -/
theorem isSession_decodes {username signature : String} {issuedAt : Int}
    (h : Decodes cookie username issuedAt signature) :
    IsSession secret cookie now ↔ now ≤ issuedAt + sessionTtlSeconds
      ∧ signature = sign secret (payload username issuedAt) := by
  refine ⟨?_, fun hrest => ⟨username, issuedAt, signature, h, hrest⟩⟩
  rintro ⟨_, _, _, h', hrest⟩
  obtain ⟨rfl, rfl, rfl⟩ := h.unique h'
  exact hrest

theorem foreignSignature_decodes {username signature : String} {issuedAt : Int}
    (h : Decodes cookie username issuedAt signature) :
    ForeignSignature cookie now ↔ now ≤ issuedAt + sessionTtlSeconds
      ∧ isAscii signature = false := by
  have hascii : isAscii signature = false ↔ ∃ c ∈ signature.toList, 128 ≤ c.toNat := by
    simp [isAscii]
  rw [hascii]
  refine ⟨?_, fun hrest => ⟨username, issuedAt, signature, h, hrest⟩⟩
  rintro ⟨_, _, _, h', hrest⟩
  obtain ⟨rfl, rfl, rfl⟩ := h.unique h'
  exact hrest

theorem checks_iff (hsecret : sessionSecret env = .ok secret) :
    Checks env secret cookie now ↔ ¬ ForeignSignature cookie now := by
  cases hdecode : decodeSessionCookie cookie with
  | none =>
    have hforeign : ¬ ForeignSignature cookie now := by
      rintro ⟨_, _, _, h, -⟩
      rw [decodeSessionCookie_eq_some.mpr h] at hdecode
      cases hdecode
    exact iff_of_true ⟨false, isAuthenticated_undecodable hdecode,
      iff_of_false Bool.false_ne_true (not_session_of_decode hdecode)⟩ hforeign
  | some token =>
    obtain ⟨username, issuedAt, signature⟩ := token
    have h := decodeSessionCookie_eq_some.mp hdecode
    rw [Checks, isAuthenticated_decodes hsecret h, isSession_decodes h, foreignSignature_decodes h,
      compareDigest_sign]
    by_cases hover : issuedAt + sessionTtlSeconds < now
    · rw [if_pos hover]
      exact iff_of_true ⟨false, rfl, iff_of_false Bool.false_ne_true
        fun hrest => absurd hrest.1 (Int.not_le.mpr hover)⟩
        fun hrest => absurd hrest.1 (Int.not_le.mpr hover)
    rw [if_neg hover]
    cases hascii : isAscii signature with
    | true =>
      exact iff_of_true ⟨_, rfl, by simp [Int.not_lt.mp hover]⟩ (fun hrest => by cases hrest.2)
    | false =>
      refine iff_of_false ?_ (not_not_intro ⟨Int.not_lt.mp hover, rfl⟩)
      rintro ⟨_, heq, -⟩
      cases heq

end

/-! ## §6. The cookie of a login. -/

/-- The seconds of a date have few digits. -/
theorem Clock.digits (t : Clock) : t.seconds.natAbs < 10 ^ maxDigits := by
  have hsmall : t.seconds.natAbs < 10 ^ 12 := by
    have := t.atLeast
    have := t.atMost
    omega
  exact Nat.lt_of_lt_of_le hsmall (Nat.pow_le_pow_right (by decide) (by decide))

theorem token_toList (username signature : String) (issuedAt : Int) :
    (token (payload username issuedAt) signature).toList
      = username.toList ++ ':' :: ((toString issuedAt).toList ++ ':' :: signature.toList) := by
  have htoken : token (payload username issuedAt) signature
      = username ++ ":" ++ toString issuedAt ++ ":" ++ signature := rfl
  have hcolon : ":".toList = [':'] := rfl
  simp only [htoken, String.toList_append, hcolon, List.append_assoc, List.cons_append,
    List.nil_append]

theorem decodes_sessionCookieValue (username secret : String) (t : Clock) :
    Decodes (sessionCookieValue username t.seconds secret) username t.seconds
      (sign secret (payload username t.seconds)) := by
  have hbytes := fun b => Codec.encode_lt (b := b)
    (s := token (payload username t.seconds) (sign secret (payload username t.seconds)))
  refine ⟨?_, _, _, toString t.seconds, ?_, Codec.decode_encode
    (token (payload username t.seconds) (sign secret (payload username t.seconds))), ?_,
    notMem_toString rfl (by decide) _, fun h => (sign_hex _ _ _ h).2 rfl,
    parseInt_toString t.digits⟩
  · rw [sessionCookieValue, String.toList_ofList]
    exact Codec.urlsafeB64encode_ascii hbytes
  · rw [sessionCookieValue, String.toList_ofList]
    exact Codec.urlsafeB64decode_encode hbytes
  · exact token_toList _ _ _

/-- **The session check.**  It answers, and rightly, exactly when the cookie
does not decode to a time that is not over and a signature beyond ASCII; and
whoever logs in is known until the cookie expires, whatever the name. -/
theorem session_check_iff (env : SessionEnv) (secret : String)
    (hsecret : sessionSecret env = .ok secret) :
    (∀ cookie now, Checks env secret cookie now ↔ ¬ ForeignSignature cookie now)
    ∧ ∀ username (t : Clock) now,
        isAuthenticated env (some (sessionCookieValue username t.seconds secret)) now
          = .ok (decide (now ≤ t.seconds + sessionTtlSeconds)) := by
  refine ⟨fun cookie now => checks_iff hsecret, fun username t now => ?_⟩
  have h := decodes_sessionCookieValue username secret t
  rw [isAuthenticated_decodes hsecret h, compareDigest_sign, isAscii_sign, if_pos rfl]
  by_cases hover : t.seconds + sessionTtlSeconds < now
  · rw [if_pos hover, decide_eq_false (Int.not_le.mpr hover)]
  · rw [if_neg hover, beq_self_eq_true, decide_eq_true (Int.not_lt.mp hover)]

/-- A login whose name has a colon, and the last second of its cookie. -/
theorem login_known : isAuthenticated ⟨some "key", none⟩
    (some (sessionCookieValue "root:é" 1700000000 "key")) 1700043200 = .ok true :=
  (session_check_iff ⟨some "key", none⟩ "key" rfl).2 "root:é"
    ⟨1700000000, by decide, by decide⟩ 1700043200

/-- The check of `admin:2000000000:é` raises. -/
theorem foreign_signature_raises :
    isAuthenticated ⟨some "key", none⟩ (some "YWRtaW46MjAwMDAwMDAwMDrDqQ==") 1700000000
      = .error (.type "comparing strings with non-ASCII characters is not supported")
    ∧ ¬ Checks ⟨some "key", none⟩ "key" "YWRtaW46MjAwMDAwMDAwMDrDqQ==" 1700000000 := by
  have hraises : isAuthenticated ⟨some "key", none⟩ (some "YWRtaW46MjAwMDAwMDAwMDrDqQ==") 1700000000
      = .error (.type "comparing strings with non-ASCII characters is not supported") := by
    decide +kernel
  refine ⟨hraises, ?_⟩
  rintro ⟨answer, h, -⟩
  cases hraises.symm.trans h

end Hmn.Web
