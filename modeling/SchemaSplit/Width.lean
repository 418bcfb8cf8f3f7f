namespace SchemaSplit

def fitsUnsigned (bits n : Nat) : Bool := n < Nat.pow 2 bits

def fitsSigned (bits : Nat) : Int → Bool
  | .ofNat n => fitsUnsigned (bits - 1) n
  | .negSucc n => fitsUnsigned (bits - 1) n

def fitsEither (bits : Nat) : Int → Bool
  | .ofNat n => fitsUnsigned bits n
  | .negSucc n => fitsUnsigned (bits - 1) n

end SchemaSplit
