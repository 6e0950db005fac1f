import LayeredConfig.Filter
import LayeredConfig.Text.Lowercase

/-!
Sample filters, each of which shows a part of what filters see and do.
-/

namespace LayeredConfig.Sample

variable {m : Type → Type} [Monad m]

def upper : Filter m where
  name := "upper"
  apply _ v := return some (match v.value with
    | some text => v.withValue (text.map Text.asciiUpper)
    | none => v)

/-- Adds to the payload which key is looked up, and how far an enumeration has come. -/
def tag : Filter m where
  name := "tag"
  apply ctx v :=
    let how := match ctx.resolved with
      | none => "single"
      | some resolved => s!"bulk:{resolved.size}"
    return some (v.withValue (v.value.getD "" ++ s!"[{ctx.key}|{how}]"))

/-- Makes every value known under one key; an empty one hides it. -/
def rekey (key : String) : Filter m where
  name := "rekey"
  apply _ v := return (v.withKey key).toOption

/-- Hides what an enumeration comes to after some key. -/
def dropIfResolved (key : String) : Filter m where
  name := "drop-if-resolved"
  apply ctx v := return if ctx.resolved.any (·.contains key) then none else some v

def annotate (name value : String) : Filter m where
  name := "meta"
  apply _ v := return some (v.withMeta name value)

/-- Adds to the payload what an unfiltered look-up of some key gives. -/
def appendRaw (key : String) : Filter m where
  name := "append-raw"
  apply ctx v := do
    let found ← ctx.raw key
    let payload := (found.bind (·.value)).getD "-"
    let source := (found.map (·.source)).getD "-"
    return some (v.withValue (v.value.getD "" ++ s!"+{payload}@{source}"))

end LayeredConfig.Sample
