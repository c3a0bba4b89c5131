import StyleBundle.Style.Rule

/-!
# StyleBundle.Style.Context

What encloses a rule: the media queries and container conditions of the rules around it, the
outermost first.
-/

namespace StyleBundle

structure Context where
  media : List MediaQuery := []
  containers : List ContainerQuery := []
  deriving DecidableEq, Inhabited, Repr

namespace Context

/-- A context further in. -/
def extend (c : Context) (media : List MediaQuery) (containers : List ContainerQuery) :
    Context where
  media := c.media ++ media
  containers := c.containers ++ containers

/-- A rule with the conditions of its context before its own. -/
def apply (c : Context) (r : StyleRule) : StyleRule :=
  { r with
    media := nonempty (c.media ++ r.media.getD []),
    containerQuery := nonempty (c.containers ++ r.containerQuery.getD []) }

end Context

end StyleBundle
