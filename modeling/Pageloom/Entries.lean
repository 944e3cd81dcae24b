import Pageloom.Text.Basic

/-!
# Named texts

A list of texts with names, as a page's header and a site's data have it. A name occurs once;
setting it again changes its text and leaves it in its place, so the order is that of the first
settings.

## Main definitions

* `Entries`: the lists; `Entries.put`, `Entries.get?`, `Entries.names`.
-/

namespace Pageloom

/-- Texts with names, in the order in which the names were first set. -/
abbrev Entries := List (Text × Text)

namespace Entries

/-- The entries with `name` set to `value`: in its old place if it has one, else at the end. -/
def put (name value : Text) : Entries → Entries
  | [] => [(name, value)]
  | (n, v) :: rest => if n = name then (n, value) :: rest else (n, v) :: put name value rest

/-- The text of a name. -/
def get? (name : Text) (entries : Entries) : Option Text := entries.lookup name

/-- The names, in order. -/
def names (entries : Entries) : List Text := entries.map Prod.fst

end Entries

end Pageloom
