/-! TOML values. How a table came to be decides whether later lines may add to it. -/

namespace QueryGate.Toml

inductive Real where
  | nan
  | infinite (negative : Bool)
  | finite (negative : Bool) (digits : Nat) (exponent : Int)
  deriving DecidableEq, Repr

inductive Origin where
  /-- Passed through by a header such as `[a.b]` for `a`. -/
  | implied
  | dotted
  | header
  | inline
  deriving DecidableEq, Repr

inductive Value where
  | string (text : String)
  | integer (n : Int)
  | real (x : Real)
  | boolean (b : Bool)
  | dateTime (text : String)
  /-- `ofTables` marks an array that is made of `[[header]]` sections. -/
  | array (ofTables : Bool) (items : List Value)
  | table (origin : Origin) (entries : List (String × Value))
  deriving Inhabited

abbrev Entries := List (String × Value)

namespace Real

/-- The number would be rounded to two to the power 1024. Far from it no arithmetic is needed. -/
def overflows : Real → Bool
  | nan | infinite _ => false
  | finite _ digits exponent =>
    let length : Int := (Nat.toDigits 10 digits).length
    if digits = 0 then false
    else if 400 < length + exponent then true
    else if length + exponent < -400 then false
    else
      let limit := (Nat.pow 2 54 - 1) * Nat.pow 2 970
      if 0 ≤ exponent then limit ≤ digits * Nat.pow 10 exponent.toNat
      else limit * Nat.pow 10 (-exponent).toNat ≤ digits

end Real
end QueryGate.Toml
