/-
This file reads the signing region out of an S3 endpoint.

A standard endpoint is, after an optional scheme, a host name that may begin with further labels and
goes on with the service `s3`, a point or a hyphen, an optional `dualstack` label, the region, and
the provider's domain, which may be the Chinese one and may have a slash behind it. A host name can
hold the service more than once; the one furthest to the right counts, so that a bucket can be put
in front of a host without changing the region. Any other endpoint has no region.
-/

import ConnectorSettings.Text.Blank

namespace ConnectorSettings

namespace S3

/-! ### From the service on -/

/-- A lower-case letter, a digit or a hyphen. -/
def isRegionChar (char : Char) : Bool :=
  ('a' ≤ char && char ≤ 'z') || ('0' ≤ char && char ≤ '9') || char == '-'

/-- What can follow the region. -/
def domains : List String :=
  [".amazonaws.com", ".amazonaws.com/", ".amazonaws.com.cn", ".amazonaws.com.cn/"]

/-- The region at the start of a text that goes on with the domain and ends there. -/
def regionLabel? (text : List Char) : Option (List Char) :=
  let region := text.takeWhile isRegionChar
  if !region.isEmpty && domains.contains (String.ofList (text.dropWhile isRegionChar)) then
    some region
  else none

def dualStack : List Char := "dualstack.".toList

/-- The region behind the service. The label in front of it is cut off where a region is left after
it, and is itself the region otherwise. -/
def regionBehindService? (text : List Char) : Option (List Char) :=
  if dualStack.isPrefixOf text then
    regionLabel? (text.drop dualStack.length) <|> regionLabel? text
  else regionLabel? text

/-- The region of a host name that begins with the service. -/
def regionOfService? : List Char → Option (List Char)
  | 's' :: '3' :: '.' :: text => regionBehindService? text
  | 's' :: '3' :: '-' :: text => regionBehindService? text
  | _ => none

/-! ### The whole endpoint -/

/-- The region of the rightmost service that has at least one label in front of it. -/
def regionBehindLabels? : List Char → Option (List Char)
  | [] => none
  | char :: text =>
    if char = '/' then none
    else regionBehindLabels? text <|> if char = '.' then regionOfService? text else none

def regionOfHost? (host : List Char) : Option (List Char) :=
  regionBehindLabels? host <|> regionOfService? host

def schemes : List (List Char) := ["https://".toList, "http://".toList]

/-- A text without the scheme in front of it. -/
def withoutScheme (text : List Char) : List Char :=
  match schemes.find? fun scheme => scheme.isPrefixOf text with
  | some scheme => text.drop scheme.length
  | none => text

def regionOf? (endpoint : String) : Option String :=
  (regionOfHost? (withoutScheme (Text.trim endpoint.toList))).map String.ofList

end S3

end ConnectorSettings
