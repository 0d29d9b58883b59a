import Hakawi.Common.Valkey
import Mathlib.Algebra.Group.Nat.Defs

/-!
# Refresh tokens

What a token says, when it expires, and under which keys it is revoked. A revoked
token has a key of its own, made from its digest; one more key for each account
revokes all the tokens of the account. Both kinds of entries live as long as the
configured lifetime says, as the services read it, which is not how the token
library reads it.
-/

namespace Auth

open Common

/-- What the methods of the two services throw. -/
inductive AuthError where
  | unauthorized (message : String)
  | captchaRequired (message code captchaProvider captchaSiteKey : String)
  | failure (cause : Failure)
  deriving DecidableEq

def AuthError.badRequest (message : String) : AuthError := .failure (.badRequest message)

def AuthError.notFound (message : String) : AuthError := .failure (.notFound message)

/-- The payload of a token, with the times in seconds. -/
structure Claims where
  sub : String
  email : String
  accountType : String
  adminRole : Option String
  type : Option String
  iat : Int
  exp : Int
  deriving DecidableEq

/-- The configuration, and what the services call that is not theirs. -/
structure Deployment where
  /-- `jwt.expiry` -/
  expiry : String
  /-- `jwt.refreshExpiry` -/
  refreshExpiry : String
  captchaEnabled : Bool
  captchaProvider : String
  captchaSiteKey : String
  /-- A token signed with `jwt.secret`. -/
  signAccess : Claims → String
  /-- A token signed with `jwt.refreshSecret`. -/
  signRefresh : Claims → String
  /-- What a token says that was signed with `jwt.refreshSecret`. -/
  decodeRefresh : String → Option Claims
  /-- `createHash('sha256').update(text, 'utf8').digest()` -/
  sha256 : String → Bytes
  /-- The milliseconds of a duration, to the token library. -/
  ms : String → Option Rat
  /-- `passwordHasher.compare(password, hash)` -/
  compare : String → String → Bool
  /-- `encryptionService.decrypt(text)`, `none` when it throws -/
  decrypt : String → Option String

section Texts

def isSpace (c : Char) : Bool := c.toNat < 0x10000 && Html.isSpace (Html.unit c)

@[irreducible] def trim (text : String) : String :=
  String.ofList ((text.toList.dropWhile isSpace).rdropWhile isSpace)

theorem trim_trim (text : String) : trim (trim text) = trim text := by
  rw [trim, trim, String.toList_ofList, Html.dropWhile_trimmed, List.rdropWhile_idempotent]

/-- Lower-case hex digits. -/
def hex (bytes : Bytes) : String :=
  String.ofList (bytes.flatMap fun byte =>
    [(byte.toNat / 16).digitChar, (byte.toNat % 16).digitChar])

theorem digitChar_ne_colon : ∀ n < 16, n.digitChar ≠ ':' := by decide

theorem colon_notMem_hex (bytes : Bytes) : ':' ∉ (hex bytes).toList := by
  rw [hex, String.toList_ofList, List.mem_flatMap]
  rintro ⟨byte, -, member⟩
  have high : byte.toNat / 16 < 16 := by have := byte.toNat_lt; omega
  have low : byte.toNat % 16 < 16 := by omega
  simp only [List.mem_cons, List.not_mem_nil, or_false] at member
  rcases member with same | same
  · exact digitChar_ne_colon _ high same.symm
  · exact digitChar_ne_colon _ low same.symm

end Texts

section Durations

/-- The milliseconds of a unit. -/
def multipliers : List (String × Nat) :=
  [("ms", 1), ("s", 1000), ("m", 60000), ("h", 3600000), ("d", 86400000), ("w", 604800000),
    ("y", 31557600000)]

/-- From here on a number is no longer finite. -/
def INFINITE : Nat := 2 ^ 1024 - 2 ^ 970

/-- Digits, white space and a unit, a second when there is none. -/
@[irreducible] def parseDurationToMs (duration : String) : Option Nat :=
  let text := (trim duration).toList
  let digits := text.takeWhile Char.isDigit
  let rest := (text.dropWhile Char.isDigit).dropWhile isSpace
  let unit := if rest = [] then "s" else String.ofList (rest.map Char.toLower)
  match multipliers.lookup unit with
  | none => none
  | some factor =>
    if digits = [] then none
    else
      let amount := digits.foldl (fun value c => 10 * value + (c.toNat - '0'.toNat)) 0
      if INFINITE ≤ amount then none else some (amount * factor)

def DEFAULT_REFRESH_EXPIRY : String := "7d"

variable (d : Deployment)

/-- How long an entry of either kind is kept. -/
def refreshBlacklistTtlSeconds : Nat :=
  match parseDurationToMs d.refreshExpiry with
  | none => ((parseDurationToMs DEFAULT_REFRESH_EXPIRY).getD 0 + 999) / 1000
  | some lifetimeMs => (lifetimeMs + 999) / 1000

/-- The second in which a token expires that is signed in another. -/
def expiresAt (expiresIn : String) (iat : Int) : Option Int :=
  (d.ms expiresIn).map fun lifetimeMs => (iat + lifetimeMs / 1000 : Rat).floor

end Durations

section Keys
variable (d : Deployment)

def REFRESH_TOKEN_BLACKLIST_PREFIX : String := "refresh_token:blacklist:"

def REFRESH_TOKEN_USER_BLACKLIST_PREFIX : String := "refresh_token:blacklist:user:"

def fingerprintToken (token : String) : String := hex (d.sha256 token)

def tokenKey (token : String) : String := REFRESH_TOKEN_BLACKLIST_PREFIX ++ fingerprintToken d token

def userKey (userId : String) : String := REFRESH_TOKEN_USER_BLACKLIST_PREFIX ++ userId

def resetKey (token : String) : String := "password:reset:" ++ token

/-- No digest begins like the key of an account. -/
theorem tokenKey_ne_userKey (token userId : String) : tokenKey d token ≠ userKey userId := by
  intro same
  have texts := congrArg String.toList same
  simp only [tokenKey, userKey, REFRESH_TOKEN_BLACKLIST_PREFIX,
    REFRESH_TOKEN_USER_BLACKLIST_PREFIX, String.toList_append] at texts
  have split : "refresh_token:blacklist:user:".toList =
      "refresh_token:blacklist:".toList ++ "user:".toList := by decide
  rw [split, List.append_assoc] at texts
  have digest : (fingerprintToken d token).toList = "user:".toList ++ userId.toList :=
    List.append_cancel_left texts
  have colon : ':' ∈ (fingerprintToken d token).toList := by
    rw [digest]
    exact List.mem_append_left _ (by decide)
  exact colon_notMem_hex (d.sha256 token) colon

theorem resetKey_ne_tokenKey (token other : String) : resetKey token ≠ tokenKey d other :=
  Valkey.append_ne_append (n := 1) (by decide) (by decide) (by decide) token _

theorem resetKey_ne_userKey (token userId : String) : resetKey token ≠ userKey userId :=
  Valkey.append_ne_append (n := 1) (by decide) (by decide) (by decide) token _

theorem userKey_injective {userId other : String} (same : userKey userId = userKey other) :
    userId = other := by
  simpa [userKey] using same

theorem tokenKey_eq_iff {token other : String} :
    tokenKey d token = tokenKey d other ↔ fingerprintToken d token = fingerprintToken d other := by
  simp [tokenKey]

end Keys

/-! A deployment for evaluation: its tokens spell out what they say. -/

section Plain

def spellText (text : List Char) : List Char := text.flatMap (['x', ·]) ++ ['.']

def readText : List Char → Option (List Char × List Char)
  | '.' :: rest => some ([], rest)
  | 'x' :: c :: rest => (readText rest).map fun read => (c :: read.1, read.2)
  | _ => none

theorem readText_spellText (text rest : List Char) :
    readText (spellText text ++ rest) = some (text, rest) := by
  induction text with
  | nil => rfl
  | cons c text ih => simpa [spellText, readText] using ih

/-- A sign, and as many strokes. -/
def spellInt (n : Int) : List Char :=
  spellText ((if n < 0 then '-' else '+') :: List.replicate n.natAbs '1')

def readInt (text : List Char) : Option (Int × List Char) :=
  match readText text with
  | some (sign :: strokes, rest) =>
    some (if sign = '-' then -strokes.length else strokes.length, rest)
  | _ => none

theorem readInt_spellInt (n : Int) (rest : List Char) :
    readInt (spellInt n ++ rest) = some (n, rest) := by
  rw [readInt, spellInt, readText_spellText]
  simp only [List.length_replicate, Option.some.injEq, Prod.mk.injEq, and_true]
  by_cases negative : n < 0
  · simp only [negative, if_true]
    omega
  · simp only [negative, if_false, Char.reduceEq]
    omega

def spellOption (text : Option String) : List Char :=
  spellText (text.elim [] fun text => '+' :: text.toList)

def readOption (text : List Char) : Option (Option String × List Char) :=
  match readText text with
  | some ([], rest) => some (none, rest)
  | some (_ :: text, rest) => some (some (String.ofList text), rest)
  | none => none

theorem readOption_spellOption (text : Option String) (rest : List Char) :
    readOption (spellOption text ++ rest) = some (text, rest) := by
  rw [readOption, spellOption, readText_spellText]
  cases text with
  | none => rfl
  | some text => simp

def spell (claims : Claims) : String :=
  String.ofList (spellText claims.sub.toList ++ (spellText claims.email.toList ++
    (spellText claims.accountType.toList ++ (spellOption claims.adminRole ++
      (spellOption claims.type ++ (spellInt claims.iat ++ spellInt claims.exp))))))

def unspell (token : String) : Option Claims := do
  let (sub, rest) ← readText token.toList
  let (email, rest) ← readText rest
  let (accountType, rest) ← readText rest
  let (adminRole, rest) ← readOption rest
  let (type, rest) ← readOption rest
  let (iat, rest) ← readInt rest
  let (exp, _) ← readInt rest
  return ⟨String.ofList sub, String.ofList email, String.ofList accountType, adminRole, type, iat,
    exp⟩

theorem unspell_spell (claims : Claims) : unspell (spell claims) = some claims := by
  have last := readInt_spellInt claims.exp []
  rw [List.append_nil] at last
  simp [unspell, spell, readText_spellText, readOption_spellOption, readInt_spellInt, last]

/-- A refresh token lives for ten seconds. -/
def Deployment.plain : Deployment where
  expiry := "5s"
  refreshExpiry := "10s"
  captchaEnabled := false
  captchaProvider := "none"
  captchaSiteKey := ""
  signAccess := spell
  signRefresh := spell
  decodeRefresh := unspell
  sha256 text := text.toList.map (·.toNat.toUInt8)
  ms text := (parseDurationToMs text).map fun lifetimeMs => lifetimeMs
  compare password hash := password = hash
  decrypt := some

end Plain
end Auth
