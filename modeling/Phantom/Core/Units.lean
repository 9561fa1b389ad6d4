import Phantom.Lib.Regex
import Phantom.Lib.Text

/-! Values with units, as the configuration gives them. A panic is `none`. -/
namespace Phantom.Units

/-- The magnitude of a unit value. -/
class Prefix (T : Type) where
  relativeMagnitude : T → ℕ
  fromStr : String → Except String T
  default : T

/-- An integer conversion factor. -/
def Prefix.conversionFactor {T : Type} [Prefix T] (source target : T) : Except String ℕ :=
  if relativeMagnitude source%relativeMagnitude target ≠ 0 then .error "Conversion would lose precision"
  else .ok (relativeMagnitude source/relativeMagnitude target)

inductive SiPrefix
  | nano
  | micro
  | milli
  | base
  | kilo
  | kibi
  | mega
  | mebi
  | giga
  | gibi
  | tera
  | tebi
  deriving DecidableEq, Repr

def SiPrefix.fromStr : String → Except String SiPrefix
  | "n" | "nano" => .ok nano
  | "u" | "μ" | "micro" => .ok micro
  | "m" | "milli" => .ok milli
  | "K" | "kilo" => .ok kilo
  | "Ki" | "kibi" => .ok kibi
  | "M" | "mega" => .ok mega
  | "Mi" | "mebi" => .ok mebi
  | "G" | "giga" => .ok giga
  | "Gi" | "gibi" => .ok gibi
  | "T" | "tera" => .ok tera
  | "Ti" | "tebi" => .ok tebi
  | _ => .error ("Unit prefix was not one of (n|nano|u|μ|micro|m|milli|K|kilo" ++
      "|Ki|kibi|M|mega|Mi|mebi|G|giga|Gi|gibi|T|tera|Ti|tebi)")

def SiPrefix.relativeMagnitude : SiPrefix → ℕ
  | nano => 10^9/10^9
  | micro => 10^9/10^6
  | milli => 10^9/10^3
  | base => 10^9
  | kilo => 10^9*10^3
  | kibi => 10^9*2^10
  | mega => 10^9*10^6
  | mebi => 10^9*2^20
  | giga => 10^9*10^9
  | gibi => 10^9*2^30
  | tera => 10^9*10^12
  | tebi => 10^9*2^40

instance : Prefix SiPrefix := ⟨SiPrefix.relativeMagnitude,SiPrefix.fromStr,.base⟩

/-- The prefixes from the base unit on. -/
inductive SiPrefixUpper
  | base
  | kilo
  | kibi
  | mega
  | mebi
  | giga
  | gibi
  | tera
  | tebi
  deriving DecidableEq, Repr

def SiPrefixUpper.fromStr : String → Except String SiPrefixUpper
  | "K" | "kilo" => .ok kilo
  | "Ki" | "kibi" => .ok kibi
  | "M" | "mega" => .ok mega
  | "Mi" | "mebi" => .ok mebi
  | "G" | "giga" => .ok giga
  | "Gi" | "gibi" => .ok gibi
  | "T" | "tera" => .ok tera
  | "Ti" | "tebi" => .ok tebi
  | _ => .error ("Unit prefix was not one of (K|kilo|Ki|kibi|M|mega|Mi|mebi" ++
      "|G|giga|Gi|gibi|T|tera|Ti|tebi)")

def SiPrefixUpper.relativeMagnitude : SiPrefixUpper → ℕ
  | base => 1
  | kilo => 10^3
  | kibi => 2^10
  | mega => 10^6
  | mebi => 2^20
  | giga => 10^9
  | gibi => 2^30
  | tera => 10^12
  | tebi => 2^40

instance : Prefix SiPrefixUpper := ⟨SiPrefixUpper.relativeMagnitude,SiPrefixUpper.fromStr,.base⟩

/-- Time units, treated as prefixes. -/
inductive TimePrefix
  | nano
  | micro
  | milli
  | sec
  | min
  | hour
  deriving DecidableEq, Repr

def TimePrefix.fromStr : String → Except String TimePrefix
  | "ns" | "nanosecond" | "nanoseconds" => .ok nano
  | "us" | "μs" | "microsecond" | "microseconds" => .ok micro
  | "ms" | "millisecond" | "milliseconds" => .ok milli
  | "s" | "sec" | "secs" | "second" | "seconds" => .ok sec
  | "m" | "min" | "mins" | "minute" | "minutes" => .ok min
  | "h" | "hr" | "hrs" | "hour" | "hours" => .ok hour
  | _ => .error ("Unit was not one of (ns|nanosecond|nanoseconds|us|μs|microsecond|microseconds" ++
      "|ms|millisecond|milliseconds|s|sec|secs|second|seconds|m|min|mins|minute|minutes" ++
      "|h|hr|hrs|hour|hours)")

def TimePrefix.relativeMagnitude : TimePrefix → ℕ
  | nano => 10^9/10^9
  | micro => 10^9/10^6
  | milli => 10^9/10^3
  | sec => 10^9
  | min => 10^9*60
  | hour => 10^9*60*60

instance : Prefix TimePrefix := ⟨TimePrefix.relativeMagnitude,TimePrefix.fromStr,.sec⟩

/-- Time units from the second on. -/
inductive TimePrefixUpper
  | sec
  | min
  | hour
  deriving DecidableEq, Repr

def TimePrefixUpper.fromStr : String → Except String TimePrefixUpper
  | "s" | "sec" | "secs" | "second" | "seconds" => .ok sec
  | "m" | "min" | "mins" | "minute" | "minutes" => .ok min
  | "h" | "hr" | "hrs" | "hour" | "hours" => .ok hour
  | _ => .error ("Unit prefix was not one of (s|sec|secs|second|seconds" ++
      "|m|min|mins|minute|minutes|h|hr|hrs|hour|hours)")

def TimePrefixUpper.relativeMagnitude : TimePrefixUpper → ℕ
  | sec => 1
  | min => 60
  | hour => 60*60

instance : Prefix TimePrefixUpper := ⟨TimePrefixUpper.relativeMagnitude,TimePrefixUpper.fromStr,.sec⟩

/-- A `Time`, `Bytes` or `BitsPerSec` value: they differ in the suffixes of their texts. -/
structure Quantity (T : Type) where
  value : UInt64
  magnitude : T
  deriving DecidableEq, Repr

def isSign (c : Char) : Bool := c = '+' || c = '-'
def isNumeral (c : Char) : Bool := decide ('0' ≤ c ∧ c ≤ '9') || c = '.'
def isInLine (c : Char) : Bool := c ≠ '\n'

/-- `^([+-]?[0-9\.]*)\s*(.*)$`. -/
def unitRegex : Regex Char :=
  .seq (.group (.seq (.opt isSign) (.many isNumeral)))
    (.seq (.many isWhitespace) (.group (.many isInLine)))

namespace Quantity

variable {T : Type} [Prefix T]

/-- `convert`: the factor of `try_into().unwrap()` has 64 bits. -/
def convert (q : Quantity T) (target : T) : Option (Except String (Quantity T)) :=
  match Prefix.conversionFactor q.magnitude target with
  | .error e => some (.error e)
  | .ok factor =>
    if factor<2^64 then
      if q.value.toNat*factor<2^64 then some (.ok ⟨UInt64.ofNat (q.value.toNat*factor),target⟩)
      else some (.error
        "The resulting value is outside of the bounds [0, 18446744073709551615]")
    else none

/-- The text of the magnitude: the first suffix that is there is removed. -/
def stripSuffixes (suffixes : List String) (unit : List Char) : List Char :=
  (suffixes.findSome? fun suffix ↦ stripSuffix suffix.toList unit).getD unit

def parseMagnitude (text : List Char) : Except String T :=
  match text with
  | [] => .ok Prefix.default
  | _ => Prefix.fromStr (String.ofList text)

/-- `from_str`. -/
def fromStr (suffixes : List String) (s : List Char) : Except String (Quantity T) :=
  match unitRegex.captures s with
  | some [value,unit] =>
    match parseMagnitude (stripSuffixes suffixes (trim unit)) with
    | .error e => .error e
    | .ok magnitude =>
      match parseUnsigned 10 (2^64-1) (trim value) with
      | .error kind => .error kind.message
      | .ok n => .ok ⟨UInt64.ofNat n,magnitude⟩
  | _ => .error "Unable to identify value and unit"

end Quantity

def Time.fromStr {T : Type} [Prefix T] : List Char → Except String (Quantity T) :=
  Quantity.fromStr [""]

def Bytes.fromStr {T : Type} [Prefix T] : List Char → Except String (Quantity T) :=
  Quantity.fromStr ["B","byte","bytes"]

def BitsPerSec.fromStr {T : Type} [Prefix T] : List Char → Except String (Quantity T) :=
  Quantity.fromStr ["bit","bits"]

/-- What the C interface makes of a parsed value: it is converted, and `-1` stands for an error. -/
def exported {T : Type} [Prefix T] (target : T) : Except String (Quantity T) → Option ℤ
  | .error _ => some (-1)
  | .ok x =>
    match x.convert target with
    | some (.ok y) => if y.value.toNat<2^63 then some y.value.toNat else some (-1)
    | some (.error _) => none
    | none => none

/-- Parses a string as bits-per-second. Returns `-1` on error. -/
def parseBandwidth (s : List Char) : Option ℤ := exported SiPrefixUpper.base (BitsPerSec.fromStr s)

/-- Parses a string as a time in nanoseconds. Returns `-1` on error. -/
def parseTimeNanosec (s : List Char) : Option ℤ := exported TimePrefix.nano (Time.fromStr s)

end Phantom.Units
