/-!
# What can be wrong with a URL
-/

namespace GitRemote

/-- Why a text is not an absolute URL. -/
inductive UrlError where
  /-- It has no scheme. -/
  | relative
  | emptyHost
  | badPort
  | badIpv4
  | badIpv6
  /-- The host cannot be the name of a domain. -/
  | badDomain
  /-- The host holds a character that ends or separates hosts. -/
  | badHostCharacter
  deriving DecidableEq, Repr

/-- The message for an error. -/
def UrlError.message : UrlError → String
  | .relative => "relative URL without a base"
  | .emptyHost => "empty host"
  | .badPort => "invalid port number"
  | .badIpv4 => "invalid IPv4 address"
  | .badIpv6 => "invalid IPv6 address"
  | .badDomain => "invalid international domain name"
  | .badHostCharacter => "invalid domain character"

end GitRemote
