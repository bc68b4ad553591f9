/-!
# Times and sizes

Points in time as dates of the Gregorian calendar and times of the day. Sizes of files in
the largest unit that they fill, each 1024 of the one before, with one place after the
point unless that place is 0.
-/

set_option autoImplicit false

namespace ShowerTrack.Text

/-- Year, month and day of a day counted from the first of March of the year 0. -/
def civil (days : Nat) : Nat × Nat × Nat :=
  let era := days / 146097
  let day := days % 146097
  let year := (day - day / 1460 + day / 36524 - day / 146096) / 365
  let ofYear := day - (365 * year + year / 4 - year / 100)
  let month := (5 * ofYear + 2) / 153
  let ofMonth := ofYear - (153 * month + 2) / 5 + 1
  let shifted := if month < 10 then month + 3 else month - 9
  (era * 400 + year + (if shifted ≤ 2 then 1 else 0), shifted, ofMonth)

def padded (width n : Nat) : String :=
  let ds := Nat.toDigits 10 n
  String.ofList (List.replicate (width - ds.length) '0' ++ ds)

/-- Parts of a second without zeros at the end. -/
def fraction (nanos : Nat) : String :=
  if nanos = 0 then ""
  else
    let ds := (padded 9 nanos).toList.reverse.dropWhile (· == '0')
    "." ++ String.ofList ds.reverse

/-- A time counted in seconds from the first of January 1970. -/
def timestamp (seconds nanos : Nat) : String :=
  let (year, month, day) := civil (seconds / 86400 + 719468)
  let ofDay := seconds % 86400
  padded 4 year ++ "-" ++ padded 2 month ++ "-" ++ padded 2 day ++ "T" ++
    padded 2 (ofDay / 3600) ++ ":" ++ padded 2 (ofDay / 60 % 60) ++ ":" ++
    padded 2 (ofDay % 60) ++ fraction nanos ++ "Z"

def sizeUnits : List String := ["B", "KiB", "MiB", "GiB", "TiB", "PiB", "EiB", "ZiB", "YiB"]

/-- Tenths of a number between 0 and 2 ^ 40, to the nearest, a half to the even one. -/
def tenths (x : Float) : Nat :=
  let scale : Nat := Nat.pow 2 60
  let n := (x * Float.ofNat (Nat.pow 2 20)).toUInt64.toNat
  let rest := x * Float.ofNat (Nat.pow 2 20) - Float.ofNat n
  let exact := n * Nat.pow 2 40 + (rest * Float.ofNat (Nat.pow 2 40)).toUInt64.toNat
  let q := exact * 10 / scale
  let r := exact * 10 % scale
  if 2 * r < scale then q else if scale < 2 * r then q + 1 else if q % 2 = 0 then q else q + 1

def withTenths (x : Float) : String :=
  let n := tenths x
  if n % 10 = 0 then toString (n / 10) else toString (n / 10) ++ "." ++ toString (n % 10)

def size (bytes : Nat) : String :=
  if bytes = 0 then "0 B"
  else
    let order := (Float.ofNat bytes).log10 / (1024 : Float).log10
    let unit := order.floor
    withTenths ((1024 : Float).pow (order - unit)) ++ " " ++
      (sizeUnits[unit.toUInt64.toNat]?).getD "B"

end ShowerTrack.Text
