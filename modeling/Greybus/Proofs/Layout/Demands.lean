import Greybus.Proofs.Devicetree.Statements

/-! What a layout demands of the symbols, one thing after another. Each step of its
reading asks for one demand, so reading it ends at the first demand that is not met,
and what is reported there is what is wrong with this demand. -/
namespace Greybus
open Devicetree
open Header (Symbols)
open Layout (Defect)
open Text

section
variable {ε α β : Type}

def failure? : Except ε α → Option ε
  | .ok _ => none
  | .error fault => some fault

theorem failureIff {x : Except ε α} {fault : ε} : failure? x = some fault ↔ x = .error fault := by
  cases x <;> simp [failure?]

theorem failureMap (f : α → β) (x : Except ε α) : failure? (x.map f) = failure? x := by
  cases x <;> rfl

theorem failureBind {x : Except ε α} {f : α → Except ε β} {rest : Option ε}
    (same : ∀ a, x = .ok a → failure? (f a) = rest) : failure? (x >>= f) = (failure? x).or rest := by
  cases x with
  | error fault => rfl
  | ok a => exact same a rfl

theorem firstCons (f : α → Option β) (x : α) (xs : List α) :
    (x :: xs).findSome? f = (f x).or (xs.findSome? f) := by
  rw [List.findSome?_cons]
  cases f x <;> rfl

theorem firstFlat {γ : Type} (f : β → Option γ) (g : α → List β) (xs : List α) :
    (xs.flatMap g).findSome? f = xs.findSome? fun x => (g x).findSome? f := by
  induction xs with
  | nil => rfl
  | cons x xs ih => rw [List.flatMap_cons, List.findSome?_append, firstCons, ih]

theorem firstCongr {f g : α → Option β} {xs : List α} (same : ∀ x ∈ xs, f x = g x) :
    xs.findSome? f = xs.findSome? g := by
  induction xs with
  | nil => rfl
  | cons x xs ih =>
    rw [firstCons, firstCons, same x List.mem_cons_self, ih fun y member => same y (.tail x member)]

theorem failureMapM (f : α → Except ε β) (xs : List α) :
    failure? (xs.mapM f) = xs.findSome? fun x => failure? (f x) := by
  induction xs with
  | nil => rfl
  | cons x xs ih =>
    rw [List.mapM_cons, firstCons, ← ih]
    apply failureBind
    intro y _
    cases xs.mapM f <;> rfl

end

namespace Layout

inductive Demand where
  | sole (first second : String)
  | text (node attr : String)
  | byte (node attr : String)
  | word (node attr : String)
  | handle (node attr : String)
  | owner (node : String)
  deriving DecidableEq, Repr

def misread? {ν : Type} (read : String → Except Number.Fault ν) (symbols : Symbols)
    (node attr : String) : Option Defect :=
  match said? symbols node attr with
  | none => some (.noAttribute node attr)
  | some value => (failure? (read value)).map (.badNumber node attr value)

def dangling? (symbols : Symbols) (node link target : String) : Option Defect :=
  if target ∈ mentioned symbols then none else some (.danglingLink node link target)

def Demand.defect? (symbols : Symbols) : Demand → Option Defect
  | .sole first second => some (.twoInterfaces first second)
  | .text node attr =>
    match said? symbols node attr with
    | none => some (.noAttribute node attr)
    | some _ => none
  | .byte node attr => misread? Number.readByte symbols node attr
  | .word node attr => misread? Number.readWord symbols node attr
  | .handle node attr =>
    match said? symbols node attr with
    | none => some (.noAttribute node attr)
    | some target => dangling? symbols node attr target
  | .owner node =>
    match owner? symbols node with
    | none => some (.noParent node)
    | some target => dangling? symbols node Binding.parent target

def handled? (symbols : Symbols) (node handle : String) : Option String :=
  (said? symbols node handle).filter fun target => target ∈ mentioned symbols

def owned? (symbols : Symbols) (node : String) : Option String :=
  (owner? symbols node).filter fun target => target ∈ mentioned symbols

def nodeDemands (symbols : Symbols) : Kind → String → List Demand
  | .interface, node =>
    -- Both handles are followed before the first id is read.
    let handles := [Binding.vendorHandle, Binding.productHandle]
    handles.map (.handle node) ++ (handles.filterMap (handled? symbols node)).map (.byte · Binding.id)
  | .string, node => [.byte node Binding.id, .text node Binding.text]
  | .bundle, node => [.byte node Binding.id, .byte node Binding.bundleClass]
  | .cport, node =>
    [.word node Binding.id, .owner node] ++ (owned? symbols node).toList.map (.byte · Binding.id) ++
      [.byte node Binding.protocol]

def kindDemands (symbols : Symbols) (kind : Kind) : List Demand :=
  (nodesOf symbols kind).flatMap (nodeDemands symbols kind)

def soleDemands (symbols : Symbols) : List Demand :=
  match nodesOf symbols .interface with
  | first :: second :: _ => [.sole first second]
  | _ => []

def demands (symbols : Symbols) : List Demand :=
  soleDemands symbols ++ Kind.all.flatMap (kindDemands symbols)

def firstDefect? (symbols : Symbols) (demands : List Demand) : Option Defect :=
  demands.findSome? (Demand.defect? symbols)

section
variable {symbols : Symbols} {node : Node} (member : node ∈ (Devicetree.ofSymbols symbols).nodes)

include member

theorem nodeFilled : node.name ≠ "" := by
  have there : ((Devicetree.ofSymbols symbols).node? node.name).isSome := by simp [nodeNamed member]
  exact (nodeGet.mp there).1

theorem ownSaid {attr : String} (bound : attr ∈ Binding.all) :
    node.attr? attr = said? symbols node.name attr := by
  have own : (Devicetree.ofSymbols symbols).attr? node.name attr = said? symbols node.name attr :=
    attrNamed (nodeFilled member) bound
  rw [Devicetree.attr?, nodeNamed member] at own
  exact own

theorem ownOwner : node.parent = owner? symbols node.name := by
  have own : (Devicetree.ofSymbols symbols).parent? node.name = owner? symbols node.name := by
    apply Option.ext
    intro owner
    rw [ownerSaid, and_iff_right (nodeFilled member)]
  rw [Devicetree.parent?, nodeNamed member] at own
  exact own

theorem attrFailure {attr : String} (bound : attr ∈ Binding.all) :
    failure? (node.attr attr) = (Demand.text node.name attr).defect? symbols := by
  rw [Node.attr, ownSaid member bound, Demand.defect?]
  cases said? symbols node.name attr <;> rfl

theorem numberFailure {ν : Type} (read : String → Except Number.Fault ν) {attr : String}
    (bound : attr ∈ Binding.all) :
    failure? (node.number read attr) = misread? read symbols node.name attr := by
  rw [Node.number, Node.attr, ownSaid member bound, misread?]
  cases said? symbols node.name attr with
  | none => rfl
  | some value =>
    change failure? ((read value).mapError _) = _
    cases h : read value <;> simp [failure?, Except.mapError, h]

omit member in
theorem targetFailure (link name : String) : failure? ((Devicetree.ofSymbols symbols).target node link name) =
    dangling? symbols node.name link name := by
  unfold Devicetree.target dangling?
  cases found : (Devicetree.ofSymbols symbols).node? name with
  | none =>
    have unknown : name ∉ mentioned symbols := by simp [← nodeKnown, found]
    simp [failure?, unknown]
  | some target =>
    have known : name ∈ mentioned symbols := by simp [← nodeKnown, found]
    simp [failure?, known]

theorem handleFailure {attr : String} (bound : attr ∈ Binding.all) :
    failure? (Node.follow (Devicetree.ofSymbols symbols) node attr) =
      (Demand.handle node.name attr).defect? symbols := by
  rw [Node.follow, Node.attr, ownSaid member bound, Demand.defect?]
  cases said? symbols node.name attr with
  | none => rfl
  | some target => exact targetFailure attr target

theorem ownerFailure : failure? (Node.container (Devicetree.ofSymbols symbols) node) =
    (Demand.owner node.name).defect? symbols := by
  rw [Node.container, ownOwner member, Demand.defect?]
  cases owner? symbols node.name with
  | none => rfl
  | some target => exact targetFailure Binding.parent target

theorem handleFollowed {attr : String} (bound : attr ∈ Binding.all) {found : Node}
    (led : Node.follow (Devicetree.ofSymbols symbols) node attr = .ok found) :
    found ∈ (Devicetree.ofSymbols symbols).nodes ∧
      handled? symbols node.name attr = some found.name := by
  have option := followOption member attr
  rw [led, attrNamed (nodeFilled member) bound] at option
  obtain ⟨target, said, there⟩ := Option.bind_eq_some_iff.mp option.symm
  obtain ⟨inside, rfl⟩ := nodeIff.mp there
  have known : found.name ∈ mentioned symbols := by simp [← nodeKnown, there]
  exact ⟨inside, by simp [handled?, said, known]⟩

theorem ownerContained {found : Node}
    (led : Node.container (Devicetree.ofSymbols symbols) node = .ok found) :
    found ∈ (Devicetree.ofSymbols symbols).nodes ∧ owned? symbols node.name = some found.name := by
  have option := containerOption member
  rw [led] at option
  obtain ⟨target, linked, there⟩ := Option.bind_eq_some_iff.mp option.symm
  obtain ⟨inside, rfl⟩ := nodeIff.mp there
  have known : found.name ∈ mentioned symbols := by simp [← nodeKnown, there]
  exact ⟨inside, by simp [owned?, (ownerSaid.mp linked).2, known]⟩

omit member in
theorem demandStep {α β : Type} {step : Except Defect α} {next : α → Except Defect β}
    {demand : Demand} {rest : List Demand} (head : failure? step = demand.defect? symbols)
    (tail : ∀ a, step = .ok a → failure? (next a) = firstDefect? symbols rest) :
    failure? (step >>= next) = firstDefect? symbols (demand :: rest) := by
  rw [failureBind tail, head, firstDefect?, firstDefect?, firstCons]

theorem interfaceFailure : failure? (Interface.ofNode (Devicetree.ofSymbols symbols) node) =
    firstDefect? symbols (nodeDemands symbols .interface node.name) := by
  have vendorBound : Binding.vendorHandle ∈ Binding.all := by decide
  have productBound : Binding.productHandle ∈ Binding.all := by decide
  refine demandStep (handleFailure member vendorBound) ?_
  intro vendor first
  refine demandStep (handleFailure member productBound) ?_
  intro product second
  obtain ⟨inside, left⟩ := handleFollowed member vendorBound first
  obtain ⟨inside', right⟩ := handleFollowed member productBound second
  simp only [List.filterMap_cons, List.filterMap_nil, left, right, List.map_cons, List.map_nil]
  refine demandStep (numberFailure inside Number.readByte (by decide)) ?_
  intro _ _
  refine demandStep (numberFailure inside' Number.readByte (by decide)) ?_
  intro _ _
  rfl

theorem stringFailure (owner : Option Interface) : failure? (StringEntry.ofNode owner node) =
    firstDefect? symbols (nodeDemands symbols .string node.name) := by
  refine demandStep (numberFailure member Number.readByte (by decide)) ?_
  intro _ _
  refine demandStep (attrFailure member (by decide)) ?_
  intro _ _
  rfl

theorem bundleFailure : failure? (Bundle.ofNode node) =
    firstDefect? symbols (nodeDemands symbols .bundle node.name) := by
  refine demandStep (numberFailure member Number.readByte (by decide)) ?_
  intro _ _
  refine demandStep (numberFailure member Number.readByte (by decide)) ?_
  intro _ _
  rfl

theorem cportFailure : failure? (CPort.ofNode (Devicetree.ofSymbols symbols) node) =
    firstDefect? symbols (nodeDemands symbols .cport node.name) := by
  refine demandStep (numberFailure member Number.readWord (by decide)) ?_
  intro _ _
  refine demandStep (ownerFailure member) ?_
  intro owner led
  obtain ⟨inside, linked⟩ := ownerContained member led
  simp only [linked, Option.toList_some, List.map_cons, List.map_nil]
  refine demandStep (numberFailure inside Number.readByte (by decide)) ?_
  intro _ _
  refine demandStep (numberFailure member Number.readByte (by decide)) ?_
  intro _ _
  rfl

end

section
variable {symbols : Symbols}

theorem kindFailure {α : Type} {kind : Kind} {read : Node → Except Defect α}
    (each : ∀ node ∈ (Devicetree.ofSymbols symbols).nodes,
      failure? (read node) = firstDefect? symbols (nodeDemands symbols kind node.name)) :
    failure? (((Devicetree.ofSymbols symbols).ofKind kind).mapM read) =
      firstDefect? symbols (kindDemands symbols kind) := by
  rw [failureMapM, firstDefect?, kindDemands, firstFlat, ← kindMentioned, namesOf, List.findSome?_map]
  apply firstCongr
  intro node member
  exact each node (kindNodes member)

theorem readFailure {α β : Type} {step : Except Defect α} {next : α → Except Defect β}
    {head tail : List Demand} (first : failure? step = firstDefect? symbols head)
    (later : ∀ a, failure? (next a) = firstDefect? symbols tail) :
    failure? (step >>= next) = firstDefect? symbols (head ++ tail) := by
  rw [failureBind fun a _ => later a, first, firstDefect?, firstDefect?, firstDefect?,
    List.findSome?_append]

theorem interfacesFailure : failure? (readInterface (Devicetree.ofSymbols symbols)) =
    firstDefect? symbols (soleDemands symbols ++ kindDemands symbols .interface) := by
  have names := kindMentioned symbols .interface
  unfold readInterface
  rw [namesOf] at names
  cases nodes : (Devicetree.ofSymbols symbols).ofKind .interface with
  | nil =>
    rw [nodes] at names
    simp [soleDemands, kindDemands, ← names, firstDefect?, failure?]
  | cons node rest =>
    rw [nodes] at names
    cases rest with
    | nil =>
      have member := kindNodes (nodes ▸ List.mem_cons_self)
      simp [soleDemands, kindDemands, ← names, failureMap, interfaceFailure member]
    | cons second others =>
      simp [soleDemands, ← names, firstDefect?, firstCons, Demand.defect?, failure?]

theorem layoutFailure (symbols : Symbols) :
    failure? (ofSymbols symbols) = firstDefect? symbols (demands symbols) := by
  have order : demands symbols = (soleDemands symbols ++ kindDemands symbols .interface) ++
      (kindDemands symbols .string ++ (kindDemands symbols .bundle ++
        (kindDemands symbols .cport ++ []))) := by
    simp [demands, Kind.all]
  rw [order]
  apply readFailure interfacesFailure
  intro owner
  apply readFailure
  · rw [readStrings, failureMap]
    exact kindFailure fun node member => stringFailure member owner
  intro strings
  apply readFailure
  · rw [readBundles, failureMap]
    exact kindFailure fun node member => bundleFailure member
  intro bundles
  apply readFailure
  · rw [readCPorts, failureMap]
    exact kindFailure fun node member => cportFailure member
  intro cports
  rfl

end

end Layout
end Greybus
