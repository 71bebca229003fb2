import DbClient.Text.Numeral

/-! Versions of database servers: five integers, written with points between them, read from a text
of up to five parts and found in the banner of a server. -/
namespace DbClient

-- a power is the one of core, whichever others are in scope
attribute [local instance (high)] instPowNat

/-- A server version. -/
structure Version where
  major : Int
  minor : Int
  update : Int
  patch : Int
  portUpdate : Int
  deriving Repr, DecidableEq

/-- Why a text is not a version. -/
inductive VersionError where
  | part (index : Nat) (cause : Text.NumeralError)
  | count
  | notFound
  deriving Repr, DecidableEq

def VersionError.message : VersionError → String
  | part index cause => "version part " ++ Text.decimal index ++ " is not a number: " ++ cause.message
  | count => "version has more than 5 parts"
  | notFound => "no version found in banner"

namespace Version

/-- The version with the given parts, zeros in place of missing ones. -/
def ofParts (parts : List Int) : Version :=
  ⟨parts.getD 0 0, parts.getD 1 0, parts.getD 2 0, parts.getD 3 0, parts.getD 4 0⟩

def parts (v : Version) : List Int := [v.major, v.minor, v.update, v.patch, v.portUpdate]

instance : Inhabited Version := ⟨ofParts []⟩

/-- Reads a part of a version, an integer of 32 bits. -/
def readPart : List Char → Except Text.NumeralError Int := Text.readInteger (2 ^ (31 : Nat)) (2 ^ (31 : Nat) - 1)

/-- Reads the parts from the `index`-th on; there are five at most, and the first fault counts. -/
def readParts (index : Nat) : List (List Char) → Except VersionError (List Int)
  | [] => .ok []
  | part :: rest =>
    if 5 ≤ index then .error .count
    else match readPart part with
      | .error cause => .error (.part index cause)
      | .ok n => (readParts (index + 1) rest).map (n :: ·)

def readChars (s : List Char) : Except VersionError Version :=
  (readParts 0 (Text.splitAt (· = '.') s)).map ofParts

/-- Reads a version. -/
def read (s : String) : Except VersionError Version := readChars s.toList

/-- A word of a banner that may be a version: it has a point or consists of digits. -/
def looksLikeVersion (word : List Char) : Bool := word.contains '.' || word.all Text.isDigit

/-- The first word of a banner that looks like a version and is one. -/
def ofBanner (banner : String) : Except VersionError Version :=
  match ((Text.words banner.toList).filter looksLikeVersion).findSome? fun word =>
      (readChars word).toOption with
  | some v => .ok v
  | none => .error .notFound

/-- The five parts with points between them. -/
def text (v : Version) : String := ".".intercalate (v.parts.map Text.decimal)

/-- Versions are ordered by their first different part. -/
def compare (v w : Version) : Ordering := go v.parts w.parts
where
  go : List Int → List Int → Ordering
    | a :: as, b :: bs => if a < b then .lt else if b < a then .gt else go as bs
    | _, _ => .eq

end Version
end DbClient
