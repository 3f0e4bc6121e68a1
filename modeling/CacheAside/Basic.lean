/-!
Keys and values of the store. Both are Unicode text, compared code point by code point: nothing
is trimmed, folded or normalised on the way in, and the empty text is a key and a value like any
other. Which keys a request may use is decided later, by the dispatcher.
-/

namespace CacheAside

/-- The name under which a value is kept. -/
abbrev Key := String

/-- What is kept under a key. The empty text is a present value. -/
abbrev Value := String

end CacheAside
