/-
The error and response types of `error.hpp` and `http_client.hpp`.

A `std::string` is a list of bytes. The string literals of the source are
ASCII, so `text` turns one into its bytes character by character.
-/
import Mathlib.Data.Int.Basic

set_option autoImplicit false

namespace OpenMeteo

/-- A `std::string`. -/
abbrev Bytes := List UInt8

/-- The bytes of an ASCII literal. -/
def text (s : String) : Bytes := s.toList.map fun c => UInt8.ofNat c.toNat

/-- `enum class ErrorCode`. -/
inductive ErrorCode
  | Ok
  | NetworkError
  | RateLimited
  | ServerError
  | NotFound
  | InvalidRequest
  | ParseError
  | Timeout
  | Unknown
  deriving DecidableEq, Repr

/-- `struct Error`. `detail` is the "reason" field of an error response. -/
structure Error where
  code : ErrorCode
  message : Bytes
  http_status : ℤ := 0
  detail : Bytes := []
  deriving DecidableEq, Repr

namespace Error

def network (msg : Bytes) : Error := ⟨.NetworkError, msg, 0, []⟩

def parse (msg : Bytes) : Error := ⟨.ParseError, msg, 0, []⟩

def rate_limited (msg : Bytes) : Error := ⟨.RateLimited, msg, 0, []⟩

def invalid_request (msg : Bytes) : Error := ⟨.InvalidRequest, msg, 0, []⟩

def timeout (msg : Bytes) : Error := ⟨.Timeout, msg, 0, []⟩

end Error

/-- `Result<T>`, a `std::expected<T, Error>`. -/
abbrev Result (α : Type) := Except Error α

/-- `struct HttpResponse`. -/
structure HttpResponse where
  status_code : Int16
  body : Bytes
  headers : List (Bytes × Bytes)
  deriving DecidableEq, Repr

end OpenMeteo
