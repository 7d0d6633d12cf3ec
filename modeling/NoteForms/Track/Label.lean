import NoteForms.Text.Shown

/-! Short texts that stand for trackers and listeners where one has to be named. -/

namespace NoteForms

/-- A tracker by its path. -/
def trackerLabel (path : String) : String := "Observer \x7b path: " ++ Text.shown path ++ ", .. \x7d"

/-- A listener that is registered. -/
def listenerLabel : String := "Subscription \x7b active: true \x7d"

end NoteForms
