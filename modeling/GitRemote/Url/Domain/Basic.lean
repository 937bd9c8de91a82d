import GitRemote.Text.Blank
import GitRemote.Url.Domain.Label
import GitRemote.Url.Error

/-!
# Domain names

A domain name has one written form in ASCII. Its labels are read each in any of its spellings; if one
of them is written from right to left, all have to keep to their directions.
-/

namespace GitRemote.Url

open Domain in
/-- The labels of a domain name. -/
def domainLabels? (name : List Char) : Option (List (List Char)) :=
  match prepare? name with
  | none => none
  | some prepared =>
    if prepared.any isForbidden then none
    else
      match (Text.splitOn (· == '.') prepared).mapM readLabel? with
      | none => none
      | some labels =>
        if labels.any (·.any Unicode.isRightward) && !labels.all keepsDirection then none
        else some labels

/-- A domain name in its written form. -/
def domain (cs : List Char) : Except UrlError (List Char) :=
  match Utf8.decode? (decodePercent (Utf8.encode (String.ofList cs))) with
  | none => .error .badDomain
  | some name =>
    match domainLabels? name.toList with
    | none => .error .badDomain
    | some labels =>
      let written := ['.'].intercalate (labels.map Domain.asciiLabel)
      if written.isEmpty then .error .emptyHost else .ok written

end GitRemote.Url
