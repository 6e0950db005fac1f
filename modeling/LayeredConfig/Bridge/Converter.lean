import LayeredConfig.Converter

/-!
Converters across the bridge. A converter that stands for one of the other side is unwrapped, any
other one is wrapped, so turning a converter over and back gives the converter itself.
-/

namespace LayeredConfig.Bridge

variable {m : Type → Type} [Monad m]

/-- A host converter that stands for a converter. What the converter advertises is lost. -/
def wrapConverter (tag : Tag) (c : Converter m) : HostConverter m where
  tag := tag
  target := c.target
  convert text := do return (← c.convert (.minimal "" (.plain c.target)) text).outcome
  native := some c

/-- A converter that stands for a host converter. It declines where the host converter fails. -/
def wrapHostConverter (tag : Tag) (h : HostConverter m) : Converter m where
  tag := tag
  target := h.target
  convert _ text := do
    match ← h.convert text with
    | .ok v => return ⟨[], .ok v⟩
    | .error _ => return ⟨[], .ok none⟩
  convertAbsent _ := pure ⟨[], .ok none⟩
  host := some h

def toHostConverter (tag : Tag) (c : Converter m) : HostConverter m :=
  match c.host with
  | some h => h
  | none => wrapConverter tag c

def toNativeConverter (tag : Tag) (h : HostConverter m) : Converter m :=
  match h.native with
  | some c => c
  | none => wrapHostConverter tag h

end LayeredConfig.Bridge
