import Mathlib.Tactic.Common

/-!
# Base64, with the URL-safe alphabet

Three bytes are written as four digits of six bits. Reading skips what is no digit and stops at the padding.
-/

namespace Base64

def alphabet : List Char := "ABCDEFGHIJKLMNOPQRSTUVWXYZabcdefghijklmnopqrstuvwxyz0123456789-_".toList

def digit (n : Nat) : Char := alphabet.getD n 'A'

/-- The value of a digit; the two of the standard alphabet are read as well. -/
def value (c : Char) : Option Nat :=
  if c = '+' then some 62 else if c = '/' then some 63 else alphabet.idxOf? c

def urlsafeB64encode : List UInt8 → List Char
  | [] => []
  | [a] => [digit (a.toNat / 4), digit (a.toNat % 4 * 16), '=', '=']
  | [a, b] => [digit (a.toNat / 4), digit (a.toNat % 4 * 16 + b.toNat / 16), digit (b.toNat % 16 * 4), '=']
  | a :: b :: c :: rest =>
    digit (a.toNat / 4) :: digit (a.toNat % 4 * 16 + b.toNat / 16) :: digit (b.toNat % 16 * 4 + c.toNat / 64) ::
      digit (c.toNat % 64) :: urlsafeB64encode rest

/-- `position` digits of a group of four are read and `left` holds their bits that are not yet a byte; `pads` counts the
padding since the last digit. -/
def decodeFrom (position left pads : Nat) : List Char → Option (List UInt8)
  | [] => if position = 0 then some [] else none
  | c :: rest =>
    if c = '=' then
      if 2 ≤ position then
        if 4 ≤ position + (pads + 1) then some [] else decodeFrom position left (pads + 1) rest
      else decodeFrom position left pads rest
    else
      match value c with
      | none => decodeFrom position left pads rest
      | some v =>
        match position with
        | 0 => decodeFrom 1 v 0 rest
        | 1 => (decodeFrom 2 (v % 16) 0 rest).map (UInt8.ofNat (left * 4 + v / 16) :: ·)
        | 2 => (decodeFrom 3 (v % 4) 0 rest).map (UInt8.ofNat (left * 16 + v / 4) :: ·)
        | _ => (decodeFrom 0 0 0 rest).map (UInt8.ofNat (left * 64 + v) :: ·)

def urlsafeB64decode (s : List Char) : Option (List UInt8) := decodeFrom 0 0 0 s

example : urlsafeB64encode "ab?".toUTF8.data.toList = "YWI_".toList := by decide

theorem digit_ne_pad {n : Nat} (h : n < 64) : digit n ≠ '=' := by
  revert n
  decide +kernel

theorem value_digit {n : Nat} (h : n < 64) : value (digit n) = some n := by
  revert n
  decide +kernel

section
variable {n : Nat} (h : n < 64) (left pads : Nat) (rest : List Char)
include h

theorem decodeFrom_first : decodeFrom 0 left pads (digit n :: rest) = decodeFrom 1 n 0 rest := by
  rw [decodeFrom, if_neg (digit_ne_pad h), value_digit h]
  rfl

theorem decodeFrom_second : decodeFrom 1 left pads (digit n :: rest) =
    (decodeFrom 2 (n % 16) 0 rest).map (UInt8.ofNat (left * 4 + n / 16) :: ·) := by
  rw [decodeFrom, if_neg (digit_ne_pad h), value_digit h]
  rfl

theorem decodeFrom_third : decodeFrom 2 left pads (digit n :: rest) =
    (decodeFrom 3 (n % 4) 0 rest).map (UInt8.ofNat (left * 16 + n / 4) :: ·) := by
  rw [decodeFrom, if_neg (digit_ne_pad h), value_digit h]
  rfl

theorem decodeFrom_fourth : decodeFrom 3 left pads (digit n :: rest) =
    (decodeFrom 0 0 0 rest).map (UInt8.ofNat (left * 64 + n) :: ·) := by
  rw [decodeFrom, if_neg (digit_ne_pad h), value_digit h]
  rfl

end

theorem byte_eq {a : UInt8} {n : Nat} (h : n = a.toNat) : UInt8.ofNat n = a := by
  rw [h]
  exact UInt8.ofNat_toNat

theorem decode_encode (bytes : List UInt8) : urlsafeB64decode (urlsafeB64encode bytes) = some bytes := by
  unfold urlsafeB64decode
  induction bytes using urlsafeB64encode.induct with
  | case1 => rfl
  | case2 a =>
    have ha := a.toNat_lt
    rw [urlsafeB64encode, decodeFrom_first (by omega), decodeFrom_second (by omega)]
    have read : decodeFrom 2 (a.toNat % 4 * 16 % 16) 0 ['=', '='] = some [] := rfl
    rw [read, byte_eq (a := a) (by omega)]
    rfl
  | case3 a b =>
    have ha := a.toNat_lt
    have hb := b.toNat_lt
    rw [urlsafeB64encode, decodeFrom_first (by omega), decodeFrom_second (by omega), decodeFrom_third (by omega)]
    have read : decodeFrom 3 (b.toNat % 16 * 4 % 4) 0 ['='] = some [] := rfl
    rw [read, byte_eq (a := a) (by omega), byte_eq (a := b) (by omega)]
    rfl
  | case4 a b c rest ih =>
    have ha := a.toNat_lt
    have hb := b.toNat_lt
    have hc := c.toNat_lt
    rw [urlsafeB64encode, decodeFrom_first (by omega), decodeFrom_second (by omega), decodeFrom_third (by omega),
      decodeFrom_fourth (by omega), ih, byte_eq (a := a) (by omega), byte_eq (a := b) (by omega), byte_eq (a := c) (by omega)]
    rfl

end Base64
