/-!
Why a text does not denote a number or an address.
-/

namespace LayeredConfig

/-- Why a text is no URL. -/
inductive UrlFault
  | relative | emptyHost | badPort | badIpv4 | badIpv6 | badDomainCharacter | badInternationalName
  deriving DecidableEq, Repr

def UrlFault.message : UrlFault → String
  | .relative => "relative URL without a base"
  | .emptyHost => "empty host"
  | .badPort => "invalid port number"
  | .badIpv4 => "invalid IPv4 address"
  | .badIpv6 => "invalid IPv6 address"
  | .badDomainCharacter => "invalid domain character"
  | .badInternationalName => "invalid international domain name"

/-- Why a text denotes no value of the type asked for. -/
inductive LiteralFault
  | emptyInteger | badDigit | tooLarge | tooSmall
  | emptyFloat | badFloat
  | badIpAddress | badSocketAddress
  | url (fault : UrlFault)
  | durationOverflow (text : String)
  deriving DecidableEq, Repr

def LiteralFault.message : LiteralFault → String
  | .emptyInteger => "cannot parse integer from empty string"
  | .badDigit => "invalid digit found in string"
  | .tooLarge => "number too large to fit in target type"
  | .tooSmall => "number too small to fit in target type"
  | .emptyFloat => "cannot parse float from empty string"
  | .badFloat => "invalid float literal"
  | .badIpAddress => "invalid IP address syntax"
  | .badSocketAddress => "invalid socket address syntax"
  | .url fault => fault.message
  | .durationOverflow text => s!"duration '{text}' overflows"

end LayeredConfig
