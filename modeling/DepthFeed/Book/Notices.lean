import DepthFeed.Book.Basic
import DepthFeed.Notice

/-!
# What a book has to say about an event

`Book.noticesOn` gives the notices that a book leaves when an event is applied to it: a refused
event, and a trade that should take from a level and finds none.
-/

namespace DepthFeed.Book

/-- Whether a trade should take from a level and none rests at its price. -/
def MissesLevel (b : Book) (e : Event) : Prop :=
  e.kind = .trade ∧ b.tradeRule = .takeResting ∧
    ((b.ladder e.side.opposite).find? e.price).isNone

instance (b : Book) (e : Event) : Decidable (b.MissesLevel e) :=
  inferInstanceAs (Decidable (_ ∧ _ ∧ _))

/-- The notices of applying an event. -/
def noticesOn (b : Book) (e : Event) : List Notice :=
  if e.instrument = b.instrument then
    if b.MissesLevel e then [.noRestingLevel b.instrument e.price] else []
  else
    [.foreignEvent b.instrument e.instrument e.sequence e.kind]

end DepthFeed.Book
