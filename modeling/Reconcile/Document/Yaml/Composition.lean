import Reconcile.Document.Yaml.Node
import Reconcile.Document.Yaml.Schema

namespace Reconcile.Yaml

def Label.wrap (label : Label) (content : Tree) : Tree :=
  match label.tag.bind Tag.written? with
  | some tag => .tagged tag content
  | none => content

/-- The value of a scalar. Its tag gives the kind unless it is a local one; without such a tag only
a plain scalar can be other than text. -/
def scalarTree? (label : Label) (text : List Char) (plain : Bool) : Option Tree :=
  let untagged := if plain then plainTree? text else some (.string (.ofList text))
  match label.tag with
  | some tag => if tag.isLocal then untagged.map label.wrap else kindTree? tag.kind? text
  | none => untagged

abbrev Compose := StateT Nat Option

def follow (anchored : List (Nat × Node)) : Node → Compose Node
  | .alias target => do
    let left ← get
    guard (left ≠ 0)
    set (left - 1)
    match anchored.lookup target with
    | some node => return node
    | none => failure
  | node => return node

/-- The value of a node whose collections are nested at most `depth` deep. Of several nodes with
one number the first of `anchored` counts. -/
def compose (anchored : List (Nat × Node)) (depth : Nat) (node : Node) : Compose Tree := do
  match ← follow anchored node, depth with
  | .alias _, _ => failure
  | .scalar label text plain, _ =>
    match scalarTree? label text plain with
    | some tree => return tree
    | none => failure
  | .sequence label items, depth + 1 =>
    return label.wrap (.sequence (← items.mapM (compose anchored depth)))
  | .mapping label members, depth + 1 =>
    let members ← members.mapM fun (key, value) =>
      return (← compose anchored depth key, ← compose anchored depth value)
    guard !Tree.hasTwins members
    return label.wrap (.mapping members)
  | _, 0 => failure
termination_by structural depth

/-- The value of a document. Collections may be nested 128 deep, which also ends a node that
contains itself, and a document may follow a hundred times as many aliases as it has events. -/
def Tree.ofNode? (root : Node) : Option Tree :=
  (compose root.anchored.reverse 128 root).run' (100 * root.events)

end Reconcile.Yaml
