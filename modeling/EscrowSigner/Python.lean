import Mathlib.Algebra.Order.Ring.Int
import Mathlib.Algebra.Order.BigOperators.Group.List
import Mathlib.Data.List.Induction
import Mathlib.Data.List.Sort

/-! The parts of Python that the service's code rests on: byte strings and their hexadecimal
spelling, big-endian integers, `int(text, 16)`, parsed JSON, and the exceptions that the service
raises, catches or lets through. -/

namespace EscrowSigner

abbrev Bytes := List UInt8

/-- The exceptions that the service's code names, with what they carry, and every other one. -/
inductive Exn
  | capBreach (capName : String) (retryAfterS : Int)
  | ledgerUnavailable (message : String)
  | clockRegression (message : String)
  | chainUnverified (message : String)
  | reverted (name : String)
  | rpcUnavailable (message : String)
  | calldata (reasonCode detail : String)
  | sqlite (typeName : String)
  | other (typeName : String)
deriving DecidableEq, Repr

/-- `type(exc).__name__`. -/
def Exn.typeName : Exn → String
  | capBreach .. => "CapBreach"
  | ledgerUnavailable _ => "LedgerUnavailable"
  | clockRegression _ => "ClockRegression"
  | chainUnverified _ => "ChainUnverified"
  | reverted _ => "Reverted"
  | rpcUnavailable _ => "RpcUnavailable"
  | calldata .. => "CalldataError"
  | sqlite name => name
  | other name => name

/-- A computation that succeeds is made of two that succeed. -/
theorem bind_ok_iff {ε α β : Type} {p : Except ε α} {f : α → Except ε β} {b : β} :
    (p >>= f) = .ok b ↔ ∃ a, p = .ok a ∧ f a = .ok b := by
  cases p <;> simp [bind, Except.bind]

theorem bind_error_iff {ε α β : Type} {p : Except ε α} {f : α → Except ε β} {e : ε} :
    (p >>= f) = .error e ↔ p = .error e ∨ ∃ a, p = .ok a ∧ f a = .error e := by
  cases p <;> simp [bind, Except.bind]

theorem eq_ok_of_toOption {ε α : Type} {r : Except ε α} {a : α} (h : r.toOption = some a) :
    r = .ok a := by
  cases r with
  | ok b => exact congrArg Except.ok (Option.some.inj h)
  | error e => cases h

def Exn.valueError : Exn := .other "ValueError"

def Exn.overflowError : Exn := .other "OverflowError"

def Exn.attributeError : Exn := .other "AttributeError"

/-! ### Text -/

/-- `text.encode()`. -/
def encode (text : String) : Bytes := text.toByteArray.data.toList

/-- `text.lower()`, on the ASCII letters that hexadecimal text is made of. -/
def lower (text : String) : String := String.ofList (text.toList.map Char.toLower)

/-- The characters that `str.strip` removes. -/
def isBlank (c : Char) : Bool :=
  (9 ≤ c.toNat && c.toNat ≤ 13) || (28 ≤ c.toNat && c.toNat ≤ 32) || c.toNat == 0x85 ||
    c.toNat == 0xa0 || c.toNat == 0x1680 || (0x2000 ≤ c.toNat && c.toNat ≤ 0x200a) ||
    c.toNat == 0x2028 || c.toNat == 0x2029 || c.toNat == 0x202f || c.toNat == 0x205f ||
    c.toNat == 0x3000

def stripChars (cs : List Char) : List Char :=
  ((cs.dropWhile isBlank).reverse.dropWhile isBlank).reverse

/-- `text.strip()`. -/
def strip (text : String) : String := String.ofList (stripChars text.toList)

/-! ### Hexadecimal -/

def hexDigit (n : Nat) : Char := Char.ofNat (if n < 10 then 48 + n else 87 + n)

/-- `data.hex()`, as characters. -/
def hexChars (data : Bytes) : List Char :=
  data.flatMap fun b => [hexDigit (b.toNat / 16), hexDigit (b.toNat % 16)]

/-- `"0x" + data.hex()`. -/
def hexString (data : Bytes) : String := String.ofList ('0' :: 'x' :: hexChars data)

def hexValue (c : Char) : Option Nat :=
  if '0' ≤ c ∧ c ≤ '9' then some (c.toNat - 48)
  else if 'a' ≤ c ∧ c ≤ 'f' then some (c.toNat - 87)
  else if 'A' ≤ c ∧ c ≤ 'F' then some (c.toNat - 55)
  else none

/-- The white space that `bytes.fromhex` skips between bytes. -/
def isHexSpace (c : Char) : Bool := c = ' ' || (9 ≤ c.toNat && c.toNat ≤ 13)

/-- `bytes.fromhex`: two digits a byte, white space between the bytes skipped. -/
def fromHexChars : List Char → Option Bytes
  | [] => some []
  | [c] => if isHexSpace c then some [] else none
  | c :: d :: rest =>
    if isHexSpace c then fromHexChars (d :: rest)
    else do
      let high ← hexValue c
      let low ← hexValue d
      let tail ← fromHexChars rest
      return UInt8.ofNat (16 * high + low) :: tail

theorem hexValue_hexDigit {n : Nat} (h : n < 16) : hexValue (hexDigit n) = some n := by
  revert n
  decide

theorem isHexSpace_hexDigit {n : Nat} (h : n < 16) : isHexSpace (hexDigit n) = false := by
  revert n
  decide

/-- What `data.hex()` spells, `bytes.fromhex` reads. -/
@[simp] theorem fromHexChars_hexChars (data : Bytes) : fromHexChars (hexChars data) = some data := by
  induction data with
  | nil => rfl
  | cons b data ih =>
    have hb : b.toNat < 256 := b.toNat_lt
    have hhigh : b.toNat / 16 < 16 := by omega
    have hlow : b.toNat % 16 < 16 := by omega
    have hbyte : UInt8.ofNat (16 * (b.toNat / 16) + b.toNat % 16) = b := by
      rw [Nat.div_add_mod]
      exact UInt8.ofNat_toNat
    have hcons : hexChars (b :: data) =
        hexDigit (b.toNat / 16) :: hexDigit (b.toNat % 16) :: hexChars data := rfl
    rw [hcons, fromHexChars, if_neg (by rw [isHexSpace_hexDigit hhigh]; exact Bool.false_ne_true),
      hexValue_hexDigit hhigh, hexValue_hexDigit hlow, ih]
    exact congrArg (fun b => some (b :: data)) hbyte

@[simp] theorem length_hexChars (data : Bytes) : (hexChars data).length = 2 * data.length := by
  induction data with
  | nil => rfl
  | cons b data ih =>
    have hcons : hexChars (b :: data) =
        hexDigit (b.toNat / 16) :: hexDigit (b.toNat % 16) :: hexChars data := rfl
    rw [hcons, List.length_cons, List.length_cons, ih, List.length_cons]
    omega

@[simp] theorem hexString_toList (data : Bytes) :
    (hexString data).toList = '0' :: 'x' :: hexChars data := String.toList_ofList

theorem hexString_injective : Function.Injective hexString := by
  intro data data' h
  have hchars : hexChars data = hexChars data' := by
    simpa using congrArg String.toList h
  simpa using congrArg fromHexChars hchars

/-- `bytes.fromhex(text)`. -/
def fromHex (cs : List Char) : Except Exn Bytes :=
  match fromHexChars cs with
  | some data => .ok data
  | none => .error .valueError

/-- The digits of `int(text, 16)`: single underscores may stand between digits. -/
def hexNumber (value : Nat) (afterDigit : Bool) : List Char → Option Nat
  | [] => if afterDigit then some value else none
  | c :: rest =>
    if c = '_' then (if afterDigit then hexNumber value false rest else none)
    else match hexValue c with
      | some digit => hexNumber (16 * value + digit) true rest
      | none => none

/-- The digits of `int(text, 16)` after the sign, with or without the prefix. -/
def hexNatural : List Char → Option Nat
  | '0' :: x :: rest =>
    if x = 'x' ∨ x = 'X' then
      match rest with
      | '_' :: digits => hexNumber 0 false digits
      | digits => hexNumber 0 false digits
    else hexNumber 0 false ('0' :: x :: rest)
  | cs => hexNumber 0 false cs

/-- `int(text, 16)`. -/
def intOfHex (text : String) : Except Exn Int :=
  let value := match stripChars text.toList with
    | '-' :: digits => (hexNatural digits).map fun n => -(n : Int)
    | '+' :: digits => (hexNatural digits).map fun n => (n : Int)
    | digits => (hexNatural digits).map fun n => (n : Int)
  match value with
  | some n => .ok n
  | none => .error .valueError

/-! ### Integers as bytes -/

/-- `int.from_bytes(data, "big")`. -/
def fromBytes (data : Bytes) : Nat := data.foldl (fun n b => 256 * n + b.toNat) 0

/-- The `width` low bytes of `n`, most significant first. -/
def bytesOf : (width : Nat) → (n : Nat) → Bytes
  | 0, _ => []
  | width + 1, n => bytesOf width (n / 256) ++ [UInt8.ofNat (n % 256)]

/-- `n.to_bytes(width, "big")`. -/
def toBytes (width : Nat) (n : Int) : Except Exn Bytes :=
  if 0 ≤ n ∧ n.toNat < 256 ^ width then .ok (bytesOf width n.toNat) else .error .overflowError

@[simp] theorem length_bytesOf (width n : Nat) : (bytesOf width n).length = width := by
  induction width generalizing n with
  | zero => rfl
  | succ width ih => simp [bytesOf, ih]

/-- What was written in enough bytes is read back. -/
theorem fromBytes_bytesOf {width n : Nat} (h : n < 256 ^ width) :
    fromBytes (bytesOf width n) = n := by
  induction width generalizing n with
  | zero =>
    have : n = 0 := by omega
    subst this
    rfl
  | succ width ih =>
    have hdiv : n / 256 < 256 ^ width := by omega
    have hlow : (UInt8.ofNat (n % 256)).toNat = n % 256 := by
      rw [UInt8.toNat_ofNat']
      omega
    rw [bytesOf, fromBytes, List.foldl_append]
    show 256 * fromBytes (bytesOf width (n / 256)) + (UInt8.ofNat (n % 256)).toNat = n
    rw [ih hdiv, hlow]
    omega

theorem length_of_toBytes {width : Nat} {n : Int} {data : Bytes} (h : toBytes width n = .ok data) :
    data.length = width := by
  unfold toBytes at h
  split at h
  · cases h
    exact length_bytesOf width n.toNat
  · cases h

/-- Integers with the same spelling are the same. -/
theorem toBytes_injective {width : Nat} {n m : Int} {data : Bytes} (hn : toBytes width n = .ok data)
    (hm : toBytes width m = .ok data) : n = m := by
  unfold toBytes at hn hm
  split at hn
  · rename_i hn'
    split at hm
    · rename_i hm'
      cases hn
      have hbytes : bytesOf width m.toNat = bytesOf width n.toNat := by injection hm
      have hnat := congrArg fromBytes hbytes
      rw [fromBytes_bytesOf hm'.2, fromBytes_bytesOf hn'.2] at hnat
      omega
    · cases hm
  · cases hn

theorem fromBytes_append_singleton (data : Bytes) (b : UInt8) :
    fromBytes (data ++ [b]) = 256 * fromBytes data + b.toNat := by
  unfold fromBytes
  rw [List.foldl_append]
  rfl

theorem fromBytes_lt (data : Bytes) : fromBytes data < 256 ^ data.length := by
  induction data using List.reverseRecOn with
  | nil => decide
  | append_singleton data b ih =>
    have hb : b.toNat < 256 := b.toNat_lt
    rw [fromBytes_append_singleton, List.length_append, List.length_singleton, pow_succ]
    omega

/-- What was read from bytes is written back as these bytes. -/
theorem bytesOf_fromBytes (data : Bytes) : bytesOf data.length (fromBytes data) = data := by
  induction data using List.reverseRecOn with
  | nil => rfl
  | append_singleton data b ih =>
    have hb : b.toNat < 256 := b.toNat_lt
    have hdiv : (256 * fromBytes data + b.toNat) / 256 = fromBytes data := by omega
    have hmod : (256 * fromBytes data + b.toNat) % 256 = b.toNat := by omega
    rw [List.length_append, List.length_singleton, bytesOf, fromBytes_append_singleton, hdiv, hmod,
      ih, UInt8.ofNat_toNat]

/-- The integer that bytes spell is written as these bytes. -/
theorem toBytes_fromBytes {width : Nat} {data : Bytes} (h : data.length = width) :
    toBytes width (fromBytes data) = .ok data := by
  subst h
  unfold toBytes
  rw [if_pos ⟨Int.natCast_nonneg _, fromBytes_lt data⟩, Int.toNat_natCast, bytesOf_fromBytes]

/-- An integer that fits is the one that its bytes spell. -/
theorem fromBytes_of_toBytes {width : Nat} {n : Int} {data : Bytes}
    (h : toBytes width n = .ok data) : (fromBytes data : Int) = n :=
  toBytes_injective (toBytes_fromBytes (length_of_toBytes h)) h

/-- `bytes(n)`. -/
def zeroBytes (n : Nat) : Bytes := List.replicate n 0

/-! ### JSON -/

/-- What `json.loads` returns.  The items of an object have distinct keys. -/
inductive Json
  | null
  | bool (b : Bool)
  | int (n : Int)
  | float (text : String)
  | str (text : String)
  | arr (items : List Json)
  | obj (items : List (String × Json))
deriving Repr

namespace Json

/-- The truth value of a parsed value. -/
def truthy : Json → Bool
  | null => false
  | bool b => b
  | int n => n ≠ 0
  | float text => text ≠ "0.0" && text ≠ "-0.0"
  | str text => text ≠ ""
  | arr items => !items.isEmpty
  | obj items => !items.isEmpty

/-- `value.get(key, fallback)`, which only a dictionary has. -/
def get (value : Json) (key : String) (fallback : Json) : Except Exn Json :=
  match value with
  | obj items => .ok ((items.lookup key).getD fallback)
  | _ => .error .attributeError

end Json

end EscrowSigner
