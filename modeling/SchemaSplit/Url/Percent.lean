import SchemaSplit.Text.Digits

namespace SchemaSplit.Url

def hexDigit (n : Nat) : Char := (Nat.digitChar n).toUpper

def encodeOctet (octet : UInt8) : List Char :=
  ['%', hexDigit (octet.toNat / 16), hexDigit (octet.toNat % 16)]

def encodeChar (isEncoded : Char → Bool) (c : Char) : List Char :=
  if c.toNat < 0x20 ∨ 0x7f ≤ c.toNat ∨ isEncoded c then
    (String.ofList [c]).toUTF8.toList.flatMap encodeOctet
  else [c]

def encode (isEncoded : Char → Bool) (cs : List Char) : List Char :=
  cs.flatMap (encodeChar isEncoded)

def decode : List Char → List UInt8
  | '%' :: a :: b :: rest =>
    match Text.natural? 16 [a, b] with
    | some n => n.toUInt8 :: decode rest
    | none => '%'.toNat.toUInt8 :: decode (a :: b :: rest)
  | c :: rest => (String.ofList [c]).toUTF8.toList ++ decode rest
  | [] => []

def inFragment (c : Char) : Bool := [' ', '\x22', '<', '>', '\x60'].contains c

def inQuery (c : Char) : Bool := [' ', '\x22', '#', '<', '>', '\x27'].contains c

def inPath (c : Char) : Bool := inFragment c || ['#', '?', '\x7b', '\x7d'].contains c

def inUserInfo (c : Char) : Bool :=
  inPath c || ['/', ':', ';', '=', '@', '[', '\\', ']', '^', '|'].contains c

end SchemaSplit.Url
