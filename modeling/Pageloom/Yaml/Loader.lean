import Pageloom.Yaml.Value

/-!
# Loaders

Headers and configuration files are read with the help of a loader, which gives the data that a
document stands for, or says what is wrong with it. What a loader makes of a document is its own
matter, so it is a parameter of everything that is read with one.

The loader in use has the rules of this library. It stops short of the full format in four ways.

* The tags `!!set`, `!!omap` and `!!pairs` are not among its tags, so a node with one of them is
  malformed. The full format has a set and lists of pairs for them.
* A label stands for its node from the end of the node on, so an alias inside of it is malformed.
  The full format has a value there that is among its own items.
* The depth of a document has no limit. Other loaders give up somewhere.
* A text is made of characters, and a surrogate is none: an escape that names one stands for the
  null character.

## Main definitions

* `Yaml.Loader`: what gives the data of a document.
-/

namespace Pageloom.Yaml

/-- What gives the data that a text stands for. -/
class Loader where
  load : Text → Except Fault Value

instance : Loader := ⟨load⟩

end Pageloom.Yaml
