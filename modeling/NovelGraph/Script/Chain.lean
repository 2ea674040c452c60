import NovelGraph.Graph.Links
import NovelGraph.Script.Suite

/-! Chains of blocks: a block, its suites, and what follows it. -/
namespace NovelGraph

/-- A scene with its graph, read both ways, and the surroundings of its blocks. -/
structure Flow where
  scene : Scene
  links : Links
  inputs : Inputs
  around : Script.Surroundings

namespace Flow

open Script

/-- Depth at which no block is left that was not seen before. -/
def depth (f : Flow) : Nat := f.links.targets.length + 2

/-- The text of a chain and the ids seen after it, in the order in which they were met. A block is
entered once, and not before all of its inputs. The branches of a conditional and the body of a
loop are chains of their own, which leave no trace in what was seen; nothing follows a control
block. Other blocks are followed, if `follow` is set, by their successors from top to bottom. -/
def chainFrom (f : Flow) :
    Nat → List Value → String → Bool → Value → Except Fault (String × List Value)
  | 0, seen, _, _, _ => .ok ("", seen)
  | fuel + 1, seen, indent, follow, id =>
    if id.memberOf seen || !f.inputs.allSeen seen id then .ok ("", seen)
    else
      let seen := seen ++ [id]
      match f.scene.findBlock id with
      | none => .ok ("", seen)
      | some b =>
        let branch (n : Nat) : Except Fault String :=
          match (f.links.nextIds b.id)[n]? with
          | none => .ok ""
          | some next => do
            pure (← chainFrom f fuel seen (indent ++ indentation) true next).1
        match b.kind with
        | .ifElse => do
          let ps ← b.paramList
          if (param ps "condition").isEmpty then pure ("", seen)
          else
            let yes ← branch 0
            let no ← branch 1
            pure (conditional indent ps yes no, seen)
        | .whileLoop => do
          let ps ← b.paramList
          if (param ps "condition").isEmpty then pure ("", seen)
          else pure (whileLoop indent ps (← branch 0), seen)
        | .forLoop => do
          let ps ← b.paramList
          if (param ps "variable").isEmpty || (param ps "iterable").isEmpty then pure ("", seen)
          else pure (forLoop indent ps (← branch 0), seen)
        | kind => do
          let own ← if kind.isDefinition then pure "" else b.render indent f.around
          if follow then
            let next ← f.scene.sortByPlace (f.links.next b.id)
            next.foldlM
              (fun (text, seen) t => do
                let (more, seen) ← chainFrom f fuel seen indent follow t
                pure (text ++ more, seen))
              (own, seen)
          else pure (own, seen)

/-- The chain that starts at a block. There is no bound on its length: the stack is taken to be as
deep as the longest path. -/
def chain (f : Flow) (seen : List Value) (indent : String) (follow : Bool) (id : Value) :
    Except Fault (String × List Value) := do
  id.requireKey
  f.chainFrom f.depth seen indent follow id

end Flow
end NovelGraph
