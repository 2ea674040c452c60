import NovelGraph.Editor.Curve

/-! Wires as they are drawn between plugs of a type `π`. -/
namespace NovelGraph

structure Wire (π : Type) where
  number : Nat := 0
  id : Value := .null
  source : Option π := none
  target : Option π := none
  /-- Where the wire ends while it is being drawn. -/
  looseEnd : Option Point := none
  curve : Option Curve := none
  arrow : Option Arrow := none
  highlighted : Bool := false
  selected : Bool := false

namespace Wire

variable {π : Type}

/-- The curve from a source to where the wire ends. -/
def curveFrom (w : Wire π) (place : π → Except Fault Point) (source : π) : Except Fault Curve := do
  let p ← place source
  let q ← match w.target with
    | some target => place target
    | none => pure (w.looseEnd.getD p)
  Curve.between p q

/-- The arrow at the end of a curve, if the wire has an end. -/
def arrowOn (w : Wire π) (curve : Curve) : Except Fault (Option Arrow) := do
  if w.target.isSome || w.looseEnd.isSome then pure (some (← Arrow.ofCurve curve)) else pure none

/-- Draws the wire anew between the places of its plugs, first the curve and then the arrow. What
cannot be drawn stays as it was. A wire without a source stays as it is. -/
def redraw (w : Wire π) (place : π → Except Fault Point) : Wire π × Option Fault :=
  match w.source with
  | none => (w, none)
  | some source =>
    match w.curveFrom place source with
    | .error f => (w, some f)
    | .ok curve =>
      let w := { w with curve := some curve }
      match w.arrowOn curve with
      | .error f => (w, some f)
      | .ok arrow => ({ w with arrow }, none)

/-- The wire as it is drawn first, if that can be done. -/
def drawn (w : Wire π) (place : π → Except Fault Point) : Except Fault (Wire π) :=
  match w.redraw place with
  | (w, none) => .ok w
  | (_, some f) => .error f

def endAt (w : Wire π) (place : π → Except Fault Point) (p : Point) : Wire π × Option Fault :=
  { w with looseEnd := some p }.redraw place

def plugInto (w : Wire π) (place : π → Except Fault Point) (target : π) : Wire π × Option Fault :=
  { w with target := some target, looseEnd := none }.redraw place

def highlight (w : Wire π) (on : Bool) : Wire π := { w with highlighted := on }

def select (w : Wire π) (on : Bool) : Wire π := { w with selected := on, highlighted := on }

/-- Pulls the wire out of a plug. -/
def unplug [DecidableEq π] (w : Wire π) (plug : π) : Wire π :=
  { w with
    source := if w.source = some plug then none else w.source
    target := if w.target = some plug then none else w.target }

/-- The shapes drawn for the arrow; a wire that is plugged in has a glow around it. -/
def arrowShapes (w : Wire π) : Except Fault (List (List Point)) :=
  match w.arrow with
  | none => .ok []
  | some a => do
    let shape ← a.triangle w.highlighted
    pure (if w.target.isSome then [shape, shape] else [shape])

end Wire
end NovelGraph
