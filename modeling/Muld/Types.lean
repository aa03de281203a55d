import Mathlib.Algebra.GroupWithZero.Nat

/-! The public data types of the library and the arithmetic of `size_t` and `int`. -/

namespace Muld

/-- The number of values of a 64-bit `size_t`. -/
def sizeModulus : Nat := 2 ^ 64

/-- A `size_t` computation keeps its result modulo 2^64. -/
def wrap (value : Nat) : Nat := value % sizeModulus

/-- `size_t` subtraction, which wraps below zero. -/
def wrapSub (left right : Nat) : Nat := wrap (left + (sizeModulus - right))

theorem wrap_of_lt {value : Nat} (small : value < sizeModulus) : wrap value = value :=
  Nat.mod_eq_of_lt small

theorem wrapSub_of_le {left right : Nat} (le : right ≤ left) (small : left < sizeModulus)
    : wrapSub left right = left - right := by
  have split : left + (sizeModulus - right) = left - right + sizeModulus := by omega
  rw [wrapSub, wrap, split, Nat.add_mod_right]
  exact Nat.mod_eq_of_lt (by omega)

/-- The largest `int`. -/
def intMax : Nat := 2 ^ 31 - 1

/-- An atomic `int` keeps what is added to it modulo 2^32. -/
def wrapInt (value : Int) : Int := value.bmod (2 ^ 32)

theorem wrapInt_of_le {value : Int} (nonneg : 0 ≤ value) (fits : value ≤ intMax)
    : wrapInt value = value := by
  rw [intMax] at fits
  exact Int.bmod_eq_of_le (by omega) (by omega)

inductive ErrorCode
  | ok
  | notInitialized
  | invalidState
  | invalidRequest
  | httpError
  | diskError
  | networkError
  | systemError
  | duplicateJob
  | fetchFileInfoFailed
  | connectionRefused
  | diskWriteFailed
  | maxRedirectsExceeded
  | notSupported
deriving DecidableEq, Repr

structure MuldError where
  code : ErrorCode := .ok
  httpStatus : Int := 0
  detail : String := ""
deriving DecidableEq, Repr

inductive DownloadState
  | initialized
  | queued
  | downloading
  | completed
  | failed
  | paused
  | canceled
deriving DecidableEq, Repr

structure DownloadProgress where
  totalBytes : Nat
  downloadedBytes : Nat
deriving DecidableEq, Repr

structure ChunkProgress where
  downloadedBytes : Nat
  totalBytes : Nat
deriving DecidableEq, Repr

/-- One chunk entry of a stored job image. -/
structure ChunkState where
  startRange : Nat
  endRange : Nat
  downloaded : Nat
deriving DecidableEq, Repr

/-- The fields of a stored job image that the engine is rebuilt from. -/
structure JobImage where
  fileSize : Nat
  maxConnections : Int
  ranged : Bool
  chunks : List ChunkState
deriving DecidableEq, Repr

end Muld
