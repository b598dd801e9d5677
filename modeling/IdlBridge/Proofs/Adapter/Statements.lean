import IdlBridge.Adapter.Method
import IdlBridge.Proofs.Success

/-!
# Statements of generated bodies

The lines of a generated body are read here as statements on the variables of the body: the
caller's arguments and their element counts, the remote variables, the result. A variable is known
by its part in the exchange and not by its name, so nothing depends on how parameters are called.
Given the names, statements are written as text (`Statement.layoutAll`).

Operations, getters and setters follow one plan (`Exchange.code`): arguments are prepared, the
remote object is called, arguments and result are completed. As long as no sequence has sequences
as elements, the body that is generated is the text of the statements of this plan
(`Exchange.layout_body`).
-/

set_option autoImplicit false

/-- The type is no sequence of sequences. -/
def IdlBridge.IdlType.isFlat : IdlBridge.IdlType → Bool
  | .sequence _ element => !element.isSequence
  | _ => true

namespace IdlBridge.Adapter

/-! ## Variables -/

/-- A variable of a generated body. -/
inductive Slot
  /-- The caller's value of a parameter. -/
  | argument (index : Nat)
  /-- The element count of a parameter that is a sequence. -/
  | count (index : Nat)
  /-- The remote variable of a parameter. -/
  | remote (index : Nat)
  /-- The remote side of a local object while it is narrowed. -/
  | servant
  /-- The remote result. -/
  | answer
  /-- The local result. -/
  | result
  /-- The element count of the result. -/
  | resultCount
  deriving DecidableEq, Repr, Inhabited

/-- A variable, or its element at the index of the loop around it. -/
inductive Place
  | whole (slot : Slot)
  | element (slot : Slot)
  deriving DecidableEq, Repr, Inhabited

/-- The place is an element of a sequence. -/
def Place.isElement : Place → Bool
  | whole _ => false
  | element _ => true

/-- The spelling of a place. -/
def Place.text (names : Slot → String) (index : String) : Place → String
  | whole slot => names slot
  | element slot => elementOf (names slot) index

/-! ## Statements -/

/-- What is assigned. -/
inductive Value
  /-- A null reference. -/
  | null (text : String)
  /-- A new object that is made from nothing. -/
  | fresh (text : String)
  /-- What is made from the content of a place. -/
  | made (front : String) (source : Place) (back : String)
  deriving DecidableEq, Repr, Inhabited

def Value.text (names : Slot → String) (index : String) : Value → String
  | null text => text
  | fresh text => text
  | made front source back => front ++ source.text names index ++ back

/-- A single action. -/
inductive Action
  | assign (target : Place) (value : Value)
  /-- Declares a variable together with its value. -/
  | introduce (type : String) (slot : Slot) (value : Value)
  /-- Frees memory. -/
  | free (place : Place)
  /-- Gives back a reference. -/
  | release (place : Place)
  deriving DecidableEq, Repr, Inhabited

def Action.text (names : Slot → String) (index : String) : Action → String
  | assign target value => target.text names index ++ " = " ++ value.text names index ++ ";"
  | introduce type slot value => type ++ " " ++ names slot ++ " = " ++ value.text names index ++ ";"
  | free place => "free(" ++ place.text names index ++ ");"
  | release place => place.text names index ++ "->release_ref();"

/-- A test whether a place holds a null reference. -/
inductive Test
  | isNull
  | isNotNull
  | isNil
  | isNotNil
  deriving DecidableEq, Repr, Inhabited

def Test.text (test : Test) (place : String) : String :=
  match test with
  | isNull => place ++ " == NULL"
  | isNotNull => place ++ " != NULL"
  | isNil => "CORBA::is_nil(" ++ place ++ ")"
  | isNotNil => "!CORBA::is_nil(" ++ place ++ ")"

namespace Test

variable (place : String)

theorem text_isNull : isNull.text place = place ++ " == NULL" := rfl

theorem text_isNotNull : isNotNull.text place = place ++ " != NULL" := rfl

theorem text_isNil : isNil.text place = "CORBA::is_nil(" ++ place ++ ")" := rfl

theorem text_isNotNil : isNotNil.text place = "!CORBA::is_nil(" ++ place ++ ")" := rfl

end Test

/-- An action under conditions. -/
inductive Branch
  | always (action : Action)
  | when (test : Test) (place : Place) (action : Action)
  | either (test : Test) (place : Place) (yes : Action) (no : List Action)
  deriving DecidableEq, Repr, Inhabited

namespace Branch

/-- The actions of the second case. Only a single one stands without braces. -/
def elseLayout (names : Slot → String) (index : String) : List Action → Layout
  | [action] => Layout.indented [.line (action.text names index)]
  | actions => Layout.braces (actions.map fun action => .line (action.text names index))

def layout (names : Slot → String) (index : String) : Branch → Layout
  | always action => [.line (action.text names index)]
  | when test place action =>
    .line ("if (" ++ test.text (place.text names index) ++ ")") ::
      Layout.indented [.line (action.text names index)]
  | either test place yes no =>
    [.line ("if (" ++ test.text (place.text names index) ++ ")")] ++
    Layout.indented [.line (yes.text names index)] ++
    [.line "else"] ++
    elseLayout names index no

end Branch

/-- The number of rounds of a loop. -/
inductive Bound
  /-- What a count holds. -/
  | count (slot : Slot)
  /-- The length of a remote sequence. -/
  | length (slot : Slot)
  deriving DecidableEq, Repr, Inhabited

namespace Bound

def slot : Bound → Slot
  | count slot => slot
  | length slot => slot

def text (names : Slot → String) : Bound → String
  | count slot => names slot
  | length slot => names slot ++ "->length()"

end Bound

/-- A statement of a generated body. -/
inductive Statement
  | declare (type : String) (slot : Slot)
  | perform (branch : Branch)
  /-- Stores the length of a remote sequence. -/
  | measure (count sequence : Slot)
  /-- Sets the length of a remote sequence. -/
  | resize (sequence count : Slot)
  /-- Assigns a new array. -/
  | allocate (array : Slot) (type : String) (count : Slot)
  /-- Frees an array. -/
  | discard (array : Slot)
  | loop (bound : Bound) (body : List Branch)
  /-- Calls the remote object. The directions say what the remote side does to the arguments; they
  are not written. -/
  | call (result? : Option Slot) (method : String) (arguments : List (Slot × Direction))
  | giveBack (slot : Slot)
  deriving DecidableEq, Repr, Inhabited

namespace Statement

/-- The lines of a statement, and the number of the loop after it. -/
def layout (names : Slot → String) (loops : Nat) : Statement → Layout × Nat
  | declare type slot => ([.line (type ++ " " ++ names slot ++ ";")], loops)
  | perform branch => (branch.layout names "", loops)
  | measure count sequence =>
    ([.line (names count ++ " = " ++ names sequence ++ "->length();")], loops)
  | resize sequence count =>
    ([.line (names sequence ++ "->length(" ++ names count ++ ");")], loops)
  | allocate array type count =>
    ([.line (names array ++ " = new " ++ type ++ "[" ++ names count ++ "];")], loops)
  | discard array => ([.line ("delete [] " ++ names array ++ ";")], loops)
  | loop bound body =>
    (Adapter.loop (loopVariable loops) (bound.text names)
      (body.flatMap (Branch.layout names (loopVariable loops))), loops + 1)
  | call result? method arguments =>
    ([.line (((result?.map names).map (· ++ " = ")).getD "" ++ method ++ "(" ++
      Text.join "," (arguments.map fun argument => names argument.1) ++ ");")], loops)
  | giveBack slot => ([.line ("return " ++ names slot ++ ";")], loops)

/-- The lines of statements one after another. -/
def layoutAll (names : Slot → String) (loops : Nat) : List Statement → Layout × Nat
  | [] => ([], loops)
  | statement :: statements =>
    let (first, loops) := statement.layout names loops
    let (rest, loops) := layoutAll names loops statements
    (first ++ rest, loops)

theorem layoutAll_append (names : Slot → String) (loops : Nat) (first second : List Statement) :
    layoutAll names loops (first ++ second) =
      ((layoutAll names loops first).1 ++
          (layoutAll names (layoutAll names loops first).2 second).1,
        (layoutAll names (layoutAll names loops first).2 second).2) := by
  induction first generalizing loops with
  | nil => rfl
  | cons statement first ih => simp only [List.cons_append, layoutAll, ih, List.append_assoc]

theorem layoutAll_perform (names : Slot → String) (loops : Nat) (branches : List Branch) :
    layoutAll names loops (branches.map .perform) =
      (branches.flatMap (Branch.layout names ""), loops) := by
  induction branches with
  | nil => rfl
  | cons branch branches ih =>
    simp only [List.map_cons, layoutAll, layout, ih, List.flatMap_cons]

end Statement

/-! ## Conversion of single values -/

/-- The conversion of a local value that is no sequence. -/
def remoteCode (root : ScopedName) (type : IdlType) (source target : Place) : Branch :=
  match type with
  | .basic .string => .always (.assign target (.made "CORBA::string_dup(" source ")"))
  | .basic .wstring => .always (.assign target (.made "CORBA::wstring_dup(" source ")"))
  | .enum name =>
    .always (.assign target (.made ("static_cast<::" ++ name.text ++ ">(") source ")"))
  | .interface name =>
    .either .isNull source (.assign target (.null ("::" ++ name.text ++ "::_nil()")))
      [.introduce ("::" ++ root.text ++ "_var") .servant
        (.made ("gWrapperRepository().NewSCI(\"" ++ name.text ++ "\", ") source ", _getPOA())"),
       .assign target (.made ("::" ++ name.text ++ "::_narrow(") (.whole .servant) ")")]
  | _ => .always (.assign target (.made "" source ""))

/-- The conversion of a remote value that is no sequence. -/
def localCode (type : IdlType) (source target : Place) : Branch :=
  let held := if source.isElement then ")" else ".in())"
  match type with
  | .basic .string => .always (.assign target (.made "CDA_strdup(" source held))
  | .basic .wstring => .always (.assign target (.made "CDA_wcsdup(" source held))
  | .enum _ =>
    .always (.assign target (.made ("static_cast<" ++ valueType type ++ ">(") source ")"))
  | .interface name =>
    .either .isNil source (.assign target (.null "NULL"))
      [.assign target (.made ("static_cast<" ++ valueType type ++
        ">(gWrapperRepository().NewCCI(\"" ++ name.text ++ "\", ") source ", _getPOA()))")]
  | _ => .always (.assign target (.made "" source ""))

/-- Frees what a local value that is no sequence owns. -/
def freeCode (type : IdlType) (place : Place) : List Branch :=
  match type with
  | .basic .string | .basic .wstring => [.always (.free place)]
  | .interface _ => [.when .isNotNull place (.release place)]
  | _ => []

/-- Gives back a reference to a remote object. -/
def releaseCode (place : Place) : Branch :=
  .when .isNotNil place (.release place)

section Spelling

variable (names : Slot → String) (index : String)

theorem layout_remoteCode (servant : names .servant = "_sci") (root : ScopedName) (type : IdlType)
    (source target : Place) :
    (remoteCode root type source target).layout names index =
      valueToRemote root type (source.text names index) (target.text names index) := by
  have held : (Place.whole .servant).text names index = "_sci" := servant
  rw [remoteCode.eq_def, valueToRemote.eq_def]
  split <;>
    simp only [Branch.layout, Branch.elseLayout, Action.text, Value.text, Test.text_isNull, held,
      servant, List.map_cons, List.map_nil, Layout.indented, Layout.braces, Layout.block,
      List.cons_append, List.nil_append, List.cons.injEq, Piece.line.injEq, true_and, and_true,
      ← String.toList_inj, String.toList_append, List.append_assoc]
  case h_4 => exact ⟨rfl, rfl, rfl, rfl⟩
  all_goals rfl

theorem layout_localCode (type : IdlType) (source target : Place) :
    (localCode type source target).layout names index =
      valueToLocal type (source.text names index) (target.text names index) source.isElement := by
  rw [localCode.eq_def, valueToLocal.eq_def]
  cases source.isElement <;> simp only [if_true, if_false, Bool.false_eq_true] <;> split <;>
    simp only [Branch.layout, Branch.elseLayout, Action.text, Value.text, Test.text_isNil,
      Layout.indented, List.cons_append, List.nil_append, List.cons.injEq, Piece.line.injEq,
      true_and, and_true, ← String.toList_inj, String.toList_append, List.append_assoc]
  case h_4 | h_4 => exact ⟨rfl, rfl, rfl⟩
  all_goals rfl

theorem layout_freeCode (type : IdlType) (place : Place) :
    (freeCode type place).flatMap (Branch.layout names index) =
      freeValue type (place.text names index) := by
  have tested : "if (" ++ Test.isNotNull.text (place.text names index) ++ ")" =
      "if (" ++ place.text names index ++ " != NULL)" := by
    rw [Test.text_isNotNull, ← String.append_assoc, String.append_assoc]
    rfl
  rw [freeCode.eq_def, freeValue.eq_def]
  split
  case h_3 =>
    rw [List.flatMap_cons, Branch.layout, tested]
    rfl
  case h_4 => simp only [List.flatMap_nil]
  all_goals rfl

theorem layout_releaseCode (place : Place) :
    (releaseCode place).layout names index = releaseReference (place.text names index) := by
  have tested : "if (" ++ Test.isNotNil.text (place.text names index) ++ ")" =
      "if (!CORBA::is_nil(" ++ place.text names index ++ "))" := by
    rw [Test.text_isNotNil, ← String.append_assoc, ← String.append_assoc, String.append_assoc]
    rfl
  rw [releaseCode, Branch.layout, tested]
  rfl

end Spelling

/-! ## Conversion of variables -/

/-- The conversion of a local value. -/
def fillRemote (root : ScopedName) (type : IdlType) (source target count : Slot) :
    List Statement :=
  match type with
  | .sequence name element =>
    [.perform (.always (.assign (.whole target)
        (.fresh ("new " ++ remoteType (.sequence name element) ++ "()")))),
     .resize target count,
     .loop (.count count) [remoteCode root element (.element source) (.element target)]]
  | type => [.perform (remoteCode root type (.whole source) (.whole target))]

/-- The conversion of a remote value. -/
def fillLocal (type : IdlType) (source target count : Slot) : List Statement :=
  match type with
  | .sequence _ element =>
    [.measure count source,
     .allocate target (valueType element) count,
     .loop (.count count) [localCode element (.element source) (.element target)]]
  | type => [.perform (localCode type (.whole source) (.whole target))]

/-- Frees what a local value owns. -/
def freeLocalCode (type : IdlType) (place count : Slot) : List Statement :=
  match type with
  | .sequence _ element =>
    (if ownsLocal element then [.loop (.count count) (freeCode element (.element place))]
     else []) ++ [.discard place]
  | type => (freeCode type (.whole place)).map .perform

/-- Gives back the references that a remote value holds. -/
def releaseRemoteCode (type : IdlType) (place : Slot) : List Statement :=
  match type with
  | .interface _ => [.perform (releaseCode (.whole place))]
  | .sequence _ (.interface _) => [.loop (.length place) [releaseCode (.element place)]]
  | _ => []

/-! ## Steps -/

theorem Step.layoutAll_append {root : ScopedName} {loops : Nat} {first second : List Step}
    {written : Layout × Nat} (done : layoutAll root loops first = .ok written) :
    layoutAll root loops (first ++ second) =
      (layoutAll root written.2 second).map fun rest => (written.1 ++ rest.1, rest.2) := by
  induction first generalizing loops written with
  | nil =>
    cases done
    rw [List.nil_append]
    cases layoutAll root loops second <;> rfl
  | cons step steps ih =>
    simp only [layoutAll, bind_eq_ok_iff] at done
    obtain ⟨⟨here, middle⟩, stepDone, rest, restDone, done⟩ := done
    cases done
    simp only [List.cons_append, layoutAll, stepDone, bind, Except.bind, ih restDone]
    cases layoutAll root rest.2 second with
    | error cause => rfl
    | ok more => simp [Except.map]

/-- The text of the steps is the text of the statements. -/
def Prints (root : ScopedName) (names : Slot → String) (steps : List Step)
    (code : List Statement) : Prop :=
  ∀ loops, Step.layoutAll root loops steps = .ok (Statement.layoutAll names loops code)

namespace Prints

variable {root : ScopedName} {names : Slot → String}

theorem nil : Prints root names [] [] := fun _ => rfl

theorem append {first second : List Step} {code more : List Statement}
    (before : Prints root names first code) (after : Prints root names second more) :
    Prints root names (first ++ second) (code ++ more) := by
  intro loops
  rw [Step.layoutAll_append (before loops), after, Statement.layoutAll_append]
  rfl

/-- A single step. -/
theorem step {step : Step} {code : List Statement}
    (written : ∀ loops, step.layout root loops = .ok (Statement.layoutAll names loops code)) :
    Prints root names [step] code := by
  intro loops
  rw [Step.layoutAll, written]
  simp [Step.layoutAll, bind, Except.bind]

theorem declareRemote (type : IdlType) (slot : Slot) :
    Prints root names [.declareRemote type (names slot)] [.declare (remoteHolder type) slot] :=
  step fun _ => rfl

theorem declareLocal (type : IdlType) (slot : Slot) :
    Prints root names [.declareLocal type (names slot)] [.declare (valueType type) slot] :=
  step fun _ => rfl

theorem giveBack (slot : Slot) :
    Prints root names [.giveBack (names slot)] [.giveBack slot] :=
  step fun _ => rfl

theorem perform (branches : List Branch) {step : Step}
    (written : ∀ loops, step.layout root loops =
      .ok (branches.flatMap (Branch.layout names ""), loops)) :
    Prints root names [step] (branches.map .perform) := by
  refine .step fun loops => ?_
  rw [written, Statement.layoutAll_perform]

theorem toRemote (servant : names .servant = "_sci") {type : IdlType} (flat : type.isFlat = true)
    {source target count : Slot} {length? : Option String}
    (measured : type.isSequence = true → length? = some (names count)) :
    Prints root names [.toRemote type (names source) (names target) length?]
      (fillRemote root type source target count) := by
  cases type with
  | sequence name element =>
    refine step fun loops => ?_
    have inner : element.isSequence = false := by simpa [IdlType.isFlat] using flat
    have created : names target ++ " = new " ++ remoteType (.sequence name element) ++ "();" =
        names target ++ " = " ++ ("new " ++ remoteType (.sequence name element) ++ "()") ++ ";" :=
      String.toList_inj.mp (by simp)
    rw [measured rfl, Step.layout, fillRemote]
    simp only [requireLength, inner, bind, Except.bind, Bool.false_eq_true, if_false, created,
      Statement.layoutAll, Statement.layout, List.flatMap_cons, List.flatMap_nil, List.append_nil,
      layout_remoteCode names _ servant]
    rfl
  | basic | enum | interface =>
    refine perform [_] fun loops => ?_
    rw [List.flatMap_cons, List.flatMap_nil, List.append_nil, layout_remoteCode names _ servant]
    rfl

theorem toLocal {type : IdlType} (flat : type.isFlat = true) {source target count : Slot}
    {length? : Option String} (measured : type.isSequence = true → length? = some (names count)) :
    Prints root names [.toLocal type (names source) (names target) length? true]
      (fillLocal type source target count) := by
  cases type with
  | sequence name element =>
    refine step fun loops => ?_
    have inner : element.isSequence = false := by simpa [IdlType.isFlat] using flat
    rw [measured rfl, Step.layout, fillLocal]
    simp only [requireLength, inner, bind, Except.bind, Bool.false_eq_true, if_false, if_true,
      Statement.layoutAll, Statement.layout, List.flatMap_cons, List.flatMap_nil, List.append_nil,
      layout_localCode names]
    rfl
  | basic | enum | interface =>
    refine perform [_] fun loops => ?_
    rw [List.flatMap_cons, List.flatMap_nil, List.append_nil, layout_localCode names]
    rfl

theorem freeLocal {type : IdlType} (flat : type.isFlat = true) {place count : Slot}
    {length? : Option String} (measured : type.isSequence = true → length? = some (names count)) :
    Prints root names [.freeLocal type (names place) length?] (freeLocalCode type place count) := by
  cases type with
  | sequence name element =>
    refine step fun loops => ?_
    have inner : element.isSequence = false := by simpa [IdlType.isFlat] using flat
    rw [measured rfl, Step.layout, freeLocalCode]
    simp only [requireLength, inner, bind, Except.bind, Bool.false_eq_true, if_false]
    split
    · simp only [List.cons_append, List.nil_append, Statement.layoutAll, Statement.layout,
        layout_freeCode names, List.append_nil]
      rfl
    · rfl
  | basic | enum | interface =>
    refine perform _ fun loops => ?_
    rw [layout_freeCode names]
    rfl

theorem releaseRemote {type : IdlType} {place : Slot} :
    Prints root names [.releaseRemote type (names place)] (releaseRemoteCode type place) := by
  refine step fun loops => ?_
  cases type with
  | interface name =>
    simp only [releaseRemoteCode, Statement.layoutAll, Statement.layout, layout_releaseCode names,
      List.append_nil]
    rfl
  | sequence name element =>
    cases element with
    | interface name =>
      simp only [releaseRemoteCode, Statement.layoutAll, Statement.layout, List.flatMap_cons,
        List.flatMap_nil, List.append_nil, layout_releaseCode names]
      rfl
    | basic | enum | sequence => rfl
  | basic | enum => rfl

end Prints

/-! ## Parameters -/

end IdlBridge.Adapter

namespace IdlBridge.Parameter

open Adapter

/-- The statements that prepare the argument with the given index. -/
def preparing (root : ScopedName) (param : Parameter) (index : Nat) : List Statement :=
  .declare (remoteHolder param.type) (.remote index) ::
    if param.direction.isIn then
      fillRemote root param.type (.argument index) (.remote index) (.count index)
    else []

/-- The statements that complete the argument with the given index. -/
def completing (param : Parameter) (index : Nat) : List Statement :=
  (if param.direction.isOut then
    (if param.direction.isIn then
      freeLocalCode param.type (.argument index) (.count index) else []) ++
      fillLocal param.type (.remote index) (.argument index) (.count index)
   else []) ++
  if param.direction.isIn then releaseRemoteCode param.type (.remote index) else []

/-- The names that the variables of a parameter have. -/
structure Named (param : Parameter) (names : Slot → String) (index : Nat) : Prop where
  argument : names (.argument index) = param.place
  count : ∀ length ∈ param.length?, names (.count index) = length
  remote : names (.remote index) = param.remoteName

variable {param : Parameter} {names : Slot → String} {index : Nat} {root : ScopedName}

theorem Named.measured (named : param.Named names index) (sequence : param.type.isSequence = true) :
    param.length? = some (names (.count index)) := by
  have given : param.length?.isSome = true := by simp [length?, lengthName?, sequence]
  obtain ⟨length, found⟩ := Option.isSome_iff_exists.mp given
  rw [found, named.count length found]

theorem Named.prints_before (named : param.Named names index) (servant : names .servant = "_sci")
    (flat : param.type.isFlat = true) :
    Prints root names param.before (param.preparing root index) := by
  rw [before, preparing, ← named.remote, ← named.argument]
  have converted : Prints root names
      (if param.direction.isIn then [.toRemote param.type (names (.argument index))
        (names (.remote index)) param.length?] else [])
      (if param.direction.isIn then
        fillRemote root param.type (.argument index) (.remote index) (.count index) else []) := by
    split
    · exact .toRemote servant flat named.measured
    · exact .nil
  exact (Prints.declareRemote param.type (.remote index)).append converted

theorem Named.prints_after (named : param.Named names index) (flat : param.type.isFlat = true) :
    Prints root names param.after (param.completing index) := by
  rw [after, completing, ← named.remote, ← named.argument]
  refine .append ?_ ?_
  · split
    · refine .append ?_ (.toLocal flat named.measured)
      split
      · exact .freeLocal flat named.measured
      · exact .nil
    · exact .nil
  · split
    · exact .releaseRemote
    · exact .nil

end IdlBridge.Parameter

namespace IdlBridge.Adapter

/-- What is done for each parameter in turn. -/
def forParameters (code : Parameter → Nat → List Statement) (params : List Parameter) :
    List Statement :=
  params.zipIdx.flatMap fun entry => code entry.1 entry.2

theorem prints_forParameters {root : ScopedName} {names : Slot → String}
    {steps : Parameter → List Step} {code : Parameter → Nat → List Statement}
    {params : List Parameter}
    (each : ∀ index param, params[index]? = some param →
      Prints root names (steps param) (code param index)) :
    Prints root names (params.flatMap steps) (forParameters code params) := by
  have printed : ∀ (front back : List Parameter), params = front ++ back →
      Prints root names (back.flatMap steps)
        ((back.zipIdx front.length).flatMap fun entry => code entry.1 entry.2) := by
    intro front back
    induction back generalizing front with
    | nil => exact fun _ => .nil
    | cons param back ih =>
      intro whole
      rw [List.flatMap_cons, List.zipIdx_cons, List.flatMap_cons]
      refine (each front.length param (by simp [whole])).append ?_
      simpa using ih (front ++ [param]) (by simp [whole])
  exact printed [] params rfl

/-! ## Exchanges -/

/-- What a generated method exchanges with its remote object. -/
inductive Exchange
  | operation (signature : Operation)
  | getter (type : IdlType)
  | setter (type : IdlType)
  deriving DecidableEq, Repr, Inhabited

namespace Exchange

/-- The parameters; a setter has the new value as its only one. -/
def params : Exchange → List Parameter
  | operation signature => signature.params
  | getter _ => []
  | setter type => [⟨"attr", type, .input⟩]

/-- The type of the result, if there is one. -/
def result? : Exchange → Option IdlType
  | operation signature => if signature.returns.isVoid then none else some signature.returns
  | getter type => some type
  | setter _ => none

/-- The body of the method. -/
def body (active : ScopedName) (name : String) : Exchange → Body
  | operation signature => operationBody active name signature
  | getter type => getterBody active name type
  | setter type => setterBody active name type

/-- No parameter and no result is a sequence of sequences. -/
structure Flat (exchange : Exchange) : Prop where
  params : ∀ param ∈ exchange.params, param.type.isFlat = true
  result : ∀ type ∈ exchange.result?, type.isFlat = true

/-- The names of the variables. -/
def names : Exchange → Slot → String
  | _, .servant => "_sci"
  | operation signature, .argument index => ((signature.params[index]?).map Parameter.place).getD ""
  | operation signature, .count index => ((signature.params[index]?).bind Parameter.length?).getD ""
  | operation signature, .remote index =>
    ((signature.params[index]?).map Parameter.remoteName).getD ""
  | operation _, .answer => "_corba_return"
  | operation _, .result => "_simple_return"
  | operation _, .resultCount => "(*_length__return)"
  | _, .argument _ => "attr"
  | _, .count _ => "_length_attr"
  | _, .remote _ => "_corba_value"
  | _, .answer => "_corba_value"
  | _, .result => "_simple_value"
  | _, .resultCount => "(*_length_attr)"

/-- The statements in front of the call. -/
def preparation (root : ScopedName) (exchange : Exchange) : List Statement :=
  forParameters (Parameter.preparing root) exchange.params ++
    exchange.result?.elim [] fun type => [.declare (remoteHolder type) .answer]

/-- The call of the remote object. -/
def calling (active : ScopedName) (name : String) (exchange : Exchange) : Statement :=
  .call (exchange.result?.map fun _ => .answer) (downcastCall active ++ "->" ++ name)
    (exchange.params.zipIdx.map fun entry => (.remote entry.2, entry.1.direction))

/-- The statements that turn the remote result into the local one. -/
def returning (type : IdlType) : List Statement :=
  .declare (valueType type) .result :: (fillLocal type .answer .result .resultCount ++
    (releaseRemoteCode type .answer ++ [.giveBack .result]))

/-- The statements behind the call. -/
def completion (exchange : Exchange) : List Statement :=
  forParameters Parameter.completing exchange.params ++ exchange.result?.elim [] returning

/-- All statements of the body. -/
def code (root active : ScopedName) (name : String) (exchange : Exchange) : List Statement :=
  exchange.preparation root ++ exchange.calling active name :: exchange.completion

/-- The number of statements that stand in front of the guard. In an operation these are all in
front of the call. -/
def unguarded (root : ScopedName) (exchange : Exchange) : Nat :=
  match exchange with
  | operation _ => (exchange.preparation root).length
  | getter _ | setter _ => 0

/-- The name of the caught exception and the comment on what is thrown instead. -/
def complaint : Exchange → String × String
  | operation _ => ("e", "A CORBA exception occurred.")
  | getter _ | setter _ => ("cce", "A CORBA error occurred")

/-- The text of the statements, with the guard. -/
def layout (root active : ScopedName) (name : String) (exchange : Exchange) : Layout × Nat :=
  let code := exchange.code root active name
  let (first, loops) :=
    Statement.layoutAll exchange.names 0 (code.take (exchange.unguarded root))
  let (rest, loops) :=
    Statement.layoutAll exchange.names loops (code.drop (exchange.unguarded root))
  (Layout.braces (first ++ .line "try" :: Layout.braces rest ++
    handler exchange.complaint.1 exchange.complaint.2), loops)

variable {root active : ScopedName} {name : String}

theorem prints_returning (exchange : Exchange) {type : IdlType} (flat : type.isFlat = true) :
    Prints root exchange.names
      (returnSteps type (exchange.names .answer) (exchange.names .result)
        (exchange.names .resultCount))
      (returning type) := by
  have measured : type.isSequence = true →
      (if type.isSequence then some (exchange.names .resultCount) else none) =
        some (exchange.names .resultCount) := fun sequence => if_pos sequence
  exact (Prints.declareLocal type .result).append
    ((Prints.toLocal flat measured).append (Prints.releaseRemote.append (.giveBack .result)))

theorem prints_calling (active : ScopedName) (name : String) (exchange : Exchange) :
    Prints root exchange.names
      [.call (exchange.result?.map fun _ => exchange.names .answer) (downcastCall active) name
        (exchange.params.zipIdx.map fun entry => exchange.names (.remote entry.2))]
      [exchange.calling active name] := by
  refine .step fun loops => ?_
  rw [calling]
  cases exchange.result? <;>
    simp only [Step.layout, Option.map_some, Option.map_none, Option.getD_some, Option.getD_none,
      List.map_map, Statement.layoutAll, Statement.layout, String.append_assoc] <;> rfl

/-- A guarded body is written if the steps in front of the guard and those under it are. -/
theorem layout_of_prints {exchange : Exchange} {before inside : List Step}
    (guarded : exchange.body active name =
      .guarded before inside exchange.complaint.1 exchange.complaint.2)
    (early : Prints root exchange.names before
      ((exchange.code root active name).take (exchange.unguarded root)))
    (late : Prints root exchange.names inside
      ((exchange.code root active name).drop (exchange.unguarded root))) :
    (exchange.body active name).layout root = .ok (exchange.layout root active name) := by
  rw [guarded]
  simp only [Body.layout, early 0, bind, Except.bind, late _]
  rfl

theorem named_operation {signature : Operation} {index : Nat} {param : Parameter}
    (found : signature.params[index]? = some param) :
    param.Named (operation signature).names index where
  argument := by simp [names, found]
  count length given := by simp [names, found, Option.mem_def.mp given]
  remote := by simp [names, found]

theorem map_remoteName (signature : Operation) :
    signature.params.zipIdx.map (fun entry => (operation signature).names (.remote entry.2)) =
      signature.params.map Parameter.remoteName := by
  have each : ∀ entry ∈ signature.params.zipIdx,
      (operation signature).names (.remote entry.2) = entry.1.remoteName := by
    rintro ⟨param, index⟩ listed
    exact (named_operation (List.mem_zipIdx_iff_getElem?.mp listed)).remote
  rw [List.map_congr_left each]
  show signature.params.zipIdx.map (Parameter.remoteName ∘ Prod.fst) = _
  rw [← List.map_map, List.zipIdx_map_fst]

/-- In an operation only the call and what follows stands under the guard. -/
theorem layout_operation (signature : Operation) (flat : (operation signature).Flat) :
    ((operation signature).body active name).layout root =
      .ok ((operation signature).layout root active name) := by
  have flatAt : ∀ {index : Nat} {param : Parameter}, signature.params[index]? = some param →
      param.type.isFlat = true := fun found => flat.params _ (List.mem_of_getElem? found)
  have before : Prints root (operation signature).names (signature.params.flatMap Parameter.before)
      (forParameters (Parameter.preparing root) signature.params) :=
    prints_forParameters fun _ _ found =>
      (named_operation found).prints_before rfl (flatAt found)
  have after : Prints root (operation signature).names (signature.params.flatMap Parameter.after)
      (forParameters Parameter.completing signature.params) :=
    prints_forParameters fun _ _ found => (named_operation found).prints_after (flatAt found)
  have result : (operation signature).result? =
      if !signature.returns.isVoid then some signature.returns else none := by
    cases void : signature.returns.isVoid <;> simp [result?, void]
  have declared : Prints root (operation signature).names
      (if !signature.returns.isVoid then
        [.declareRemote signature.returns ((operation signature).names .answer)] else [])
      ((operation signature).result?.elim [] fun type =>
        [.declare (remoteHolder type) .answer]) := by
    rw [result]
    split
    · exact .declareRemote signature.returns .answer
    · exact .nil
  have call : Prints root (operation signature).names
      [.call
        (if !signature.returns.isVoid then some ((operation signature).names .answer) else none)
        (downcastCall active) name (signature.params.map Parameter.remoteName)]
      [(operation signature).calling active name] := by
    have called : Prints root _ _ _ := (operation signature).prints_calling active name
    rw [params, map_remoteName, result] at called
    cases void : signature.returns.isVoid <;> simpa [void] using called
  have returned : Prints root (operation signature).names
      (if !signature.returns.isVoid then
        returnSteps signature.returns ((operation signature).names .answer)
          ((operation signature).names .result) ((operation signature).names .resultCount) else [])
      ((operation signature).result?.elim [] returning) := by
    rw [result]
    split
    · rename_i nonVoid
      exact (operation signature).prints_returning (flat.result _ (by simp [result, nonVoid]))
    · exact .nil
  refine layout_of_prints rfl ?_ ?_
  · rw [code, unguarded, List.take_left]
    exact before.append declared
  · rw [code, unguarded, List.drop_left]
    exact call.append (after.append returned)

/-- In a getter everything stands under the guard. -/
theorem layout_getter (type : IdlType) (flat : type.isFlat = true) :
    ((getter type).body active name).layout root = .ok ((getter type).layout root active name) := by
  have declared : Prints root (getter type).names
      [.declareRemote type ((getter type).names .answer)]
      [.declare (remoteHolder type) .answer] := .declareRemote type .answer
  exact layout_of_prints rfl .nil (declared.append
    (((getter type).prints_calling active name).append ((getter type).prints_returning flat)))

/-- In a setter everything stands under the guard. -/
theorem layout_setter (type : IdlType) (flat : type.isFlat = true) :
    ((setter type).body active name).layout root = .ok ((setter type).layout root active name) := by
  have declared : Prints root (setter type).names
      [.declareRemote type ((setter type).names (.remote 0))]
      [.declare (remoteHolder type) (.remote 0)] := .declareRemote type (.remote 0)
  have converted : Prints root (setter type).names
      [.toRemote type ((setter type).names (.argument 0)) ((setter type).names (.remote 0))
        (if type.isSequence then some "_length_attr" else none)]
      (fillRemote root type (.argument 0) (.remote 0) (.count 0)) :=
    .toRemote rfl flat fun sequence => if_pos sequence
  have released : Prints root (setter type).names
      [.releaseRemote type ((setter type).names (.remote 0))]
      (releaseRemoteCode type (.remote 0)) := .releaseRemote
  have plan : (setter type).code root active name = [.declare (remoteHolder type) (.remote 0)] ++
      (fillRemote root type (.argument 0) (.remote 0) (.count 0) ++
        ([(setter type).calling active name] ++ releaseRemoteCode type (.remote 0))) := by
    simp [code, preparation, completion, forParameters, params, result?, Parameter.preparing,
      Parameter.completing, Direction.isIn, Direction.isOut]
  refine layout_of_prints rfl .nil ?_
  rw [unguarded, List.drop_zero, plan]
  exact declared.append (converted.append
    (((setter type).prints_calling active name).append released))

/-- **The generated body is the text of the statements of its exchange.** -/
theorem layout_body (exchange : Exchange) (flat : exchange.Flat) :
    (exchange.body active name).layout root = .ok (exchange.layout root active name) := by
  cases exchange with
  | operation signature => exact layout_operation signature flat
  | getter type => exact layout_getter type (flat.result type rfl)
  | setter type => exact layout_setter type (flat.params _ (List.mem_singleton_self _))

end Exchange

end IdlBridge.Adapter
