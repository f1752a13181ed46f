/-!
# Route keys

A key is a sequence of name segments, most significant first, and a flag that says whether the key
stands for itself alone or also for everything below it. Host names and request paths are both
looked up under keys; they differ only in how keys are read from text and in the `Style` in which
keys are shown.
-/

namespace Turnstile.Routing

/-- An address in a routing table. -/
@[ext]
structure Key where
  segments : List String
  wildcard : Bool
deriving DecidableEq, Repr, Inhabited

namespace Key

/-- No segments, and only itself. -/
def root : Key := ⟨[], false⟩

/-- No segments, and everything below: every key is covered by it. -/
def everything : Key := ⟨[], true⟩

def length (k : Key) : Nat := k.segments.length

def isEmpty (k : Key) : Bool := k.segments.isEmpty

def withWildcard (k : Key) (wildcard : Bool) : Key := { k with wildcard }

/-- The first `n` segments, or all if there are fewer; never a wildcard. -/
def take (k : Key) (n : Nat) : Key := ⟨k.segments.take n, false⟩

def drop (k : Key) (n : Nat) : Key := ⟨k.segments.drop n, false⟩

/-- The segments of both keys; the flag is the second one's. -/
def append (a b : Key) : Key := ⟨a.segments ++ b.segments, b.wildcard⟩

instance : Append Key := ⟨append⟩

/-- The segments in the opposite order under the same flag. -/
def reverse (k : Key) : Key := { k with segments := k.segments.reverse }

/-- Keys are ordered by their segments, segment by segment, and then by the flag: of two keys with
the same segments the wildcard is the later one. -/
instance : Ord Key where
  compare a b := (compare a.segments b.segments).then (compare a.wildcard b.wildcard)

structure Style where
  opening : String
  separator : String
  closing : String
  marker : String
  /-- Whether the least significant segment, or the marker of a wildcard, comes first. -/
  reversed : Bool := false
  quoted : Bool := false
deriving DecidableEq, Repr

namespace Style

/-- A path: `/a/b`, `/a/b/`, `/a/*`. -/
def path : Style := ⟨"/", "/", "", "*", false, false⟩

/-- A host name, top-level domain last: `www.example.com`, `*.example.com`. -/
def hostname : Style := ⟨"", ".", "", "*", true, false⟩

/-- The bare sequence: `[com, example, *]`. -/
def sequence : Style := ⟨"[", ", ", "]", "*", false, false⟩

end Style

/-- The texts between which the separator stands, in the order in which they are shown. -/
def parts (style : Style) (k : Key) : List String :=
  let marker := if k.wildcard then [style.marker] else []
  if style.reversed then marker ++ k.segments.reverse else k.segments ++ marker

def render (style : Style) (k : Key) : String :=
  let text := style.opening ++ style.separator.intercalate (k.parts style) ++ style.closing
  if style.quoted then "\"" ++ text ++ "\"" else text

def pathText (k : Key) : String := k.render .path

def hostText (k : Key) : String := k.render .hostname

end Key

end Turnstile.Routing
