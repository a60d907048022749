import SmartWallet.Address

set_option autoImplicit false

/-! # Assets

What balances are kept in: the native asset, or one that an account issues under a code of at most
four or at most twelve characters. A trust line may also be for a share of a liquidity pool, known
by its identifier, or, when the line is set up, by the two assets and the fee of the pool. -/

namespace SmartWallet

inductive Asset where
  | native
  /-- An asset with a short code. -/
  | alphanum4 (code : FixedBytes 4) (issuer : Bytes32)
  /-- An asset with a long code. -/
  | alphanum12 (code : FixedBytes 12) (issuer : Bytes32)
deriving DecidableEq

/-- The code of an asset without its issuer. -/
inductive AssetCode where
  /-- A short code. -/
  | alphanum4 (code : FixedBytes 4)
  /-- A long code. -/
  | alphanum12 (code : FixedBytes 12)
deriving DecidableEq

/-- What an existing trust line is for. -/
inductive TrustLineAsset where
  | asset (a : Asset)
  /-- A share of a liquidity pool. -/
  | poolShare (pool : Bytes32)
deriving DecidableEq

/-- What a trust line is set up for. -/
inductive ChangeTrustAsset where
  | asset (a : Asset)
  /-- A share of the liquidity pool for two assets, with its fee. -/
  | poolShare (a b : Asset) (fee : Int32)
deriving DecidableEq

/-- A price, as a fraction. -/
structure Price where
  /-- The numerator. -/
  n : Int32
  /-- The denominator. -/
  d : Int32
deriving DecidableEq

namespace Asset

/-- Reads an asset whose variant is known. -/
def readVariant : Nat → Xdr.Reader Asset
  | 0 => return native
  | 1 => return alphanum4 (← Xdr.read) (← Address.readAccountKey)
  | 2 => return alphanum12 (← Xdr.read) (← Address.readAccountKey)
  | _ => .invalid

def read : Xdr.Reader Asset := do readVariant (← .tag)

def write : Asset → Xdr.Encoding
  | native => .tag 0
  | alphanum4 code issuer => .tag 1 ++ Xdr.write code ++ Address.writeAccountKey issuer
  | alphanum12 code issuer => .tag 2 ++ Xdr.write code ++ Address.writeAccountKey issuer

instance : Xdr Asset := ⟨read, write⟩

end Asset

namespace AssetCode

def read : Xdr.Reader AssetCode := do
  match ← .tag with
  | 1 => alphanum4 <$> Xdr.read
  | 2 => alphanum12 <$> Xdr.read
  | _ => .invalid

def write : AssetCode → Xdr.Encoding
  | alphanum4 code => .tag 1 ++ Xdr.write code
  | alphanum12 code => .tag 2 ++ Xdr.write code

instance : Xdr AssetCode := ⟨read, write⟩

end AssetCode

namespace TrustLineAsset

def read : Xdr.Reader TrustLineAsset := do
  match ← .tag with
  | 3 => poolShare <$> Xdr.read
  | v => asset <$> Asset.readVariant v

def write : TrustLineAsset → Xdr.Encoding
  | asset a => Xdr.write a
  | poolShare pool => .tag 3 ++ Xdr.write pool

instance : Xdr TrustLineAsset := ⟨read, write⟩

end TrustLineAsset

namespace ChangeTrustAsset

/-- Reads the assets and the fee of a liquidity pool, of which there is one kind. -/
def readPool : Xdr.Reader ChangeTrustAsset := do
  match ← .tag with
  | 0 => return poolShare (← Xdr.read) (← Xdr.read) (← Xdr.read)
  | _ => .invalid

def read : Xdr.Reader ChangeTrustAsset := do
  match ← .tag with
  | 3 => readPool
  | v => asset <$> Asset.readVariant v

def write : ChangeTrustAsset → Xdr.Encoding
  | asset a => Xdr.write a
  | poolShare a b fee => .tag 3 ++ .tag 0 ++ Xdr.write a ++ Xdr.write b ++ Xdr.write fee

instance : Xdr ChangeTrustAsset := ⟨read, write⟩

end ChangeTrustAsset

namespace Price

def read : Xdr.Reader Price := return ⟨← Xdr.read, ← Xdr.read⟩

def write (p : Price) : Xdr.Encoding := Xdr.write p.n ++ Xdr.write p.d

instance : Xdr Price := ⟨read, write⟩

end Price

end SmartWallet
