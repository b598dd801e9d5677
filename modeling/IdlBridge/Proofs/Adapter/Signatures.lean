import IdlBridge.DeclTree.Draft
import IdlBridge.Proofs.Adapter.Methods
import IdlBridge.Proofs.Adapter.SheetText
import IdlBridge.Proofs.Adapter.Spelling

/-!
# Signatures in the two files

The signatures of a class are read off the interface: one for each operation, and for each name of
a group of attributes one that reads it and, unless the group is read only, one that writes it
(`Subject.signatures`). The header holds these signatures, one in each line. The source holds the
same signatures in the same order, with the class in front of the method's name, and behind each
of them one body (`Agree`, `Method.exists_agree`).
-/

set_option autoImplicit false

namespace IdlBridge.Adapter

open Text (isBrace isShaping Shaping)

variable {chosen : Char → Bool} [Shaping chosen]

/-! ## The signatures of an interface -/

/-- A signature, cut around the name of the method. -/
structure Signature where
  returns : String
  name : String
  /-- The parameters in parentheses and the exceptions. -/
  tail : String
  deriving DecidableEq, Repr, Inhabited

namespace Signature

/-- The line that declares the method. -/
def declared (signature : Signature) : String :=
  signature.returns ++ " " ++ signature.name ++ signature.tail ++ ";"

/-- The line in front of the method's body. -/
def defined (qualifier : String) (signature : Signature) : String :=
  signature.returns ++ " " ++ qualifier ++ signature.name ++ signature.tail

/-- No part of the signature holds one of the characters. -/
structure Avoids (chosen : Char → Bool) (signature : Signature) : Prop where
  returns : Text.Avoids chosen signature.returns
  name : Text.Avoids chosen signature.name
  tail : Text.Avoids chosen signature.tail

variable {signature : Signature} {qualifier : String}

theorem Avoids.declared (avoids : signature.Avoids chosen) :
    Text.Avoids chosen signature.declared :=
  (((avoids.returns.append (.literal _ rfl)).append avoids.name).append avoids.tail).append
    (.literal _ rfl)

theorem Avoids.defined (avoids : signature.Avoids chosen)
    (qualified : Text.Avoids chosen qualifier) :
    Text.Avoids chosen (signature.defined qualifier) :=
  (((avoids.returns.append (.literal _ rfl)).append qualified).append avoids.name).append
    avoids.tail

theorem declared_ne_empty : signature.declared ≠ "" := by
  simp [declared]

theorem defined_ne_empty : signature.defined qualifier ≠ "" := by
  simp [defined]

end Signature

/-- What stands between a method's name and the end of its signature. -/
def throwing (params : String) : String :=
  "(" ++ params ++ ")" ++ throwsLocal

/-- The signature of an operation. The root interface gives other interfaces of its object as
they are. -/
def operationSignature (settings : Settings) (active : ScopedName) (name : String)
    (operation : Operation) : Signature where
  returns :=
    if settings.isRoot active ∧ name = "query_interface" then "void*"
    else valueType operation.returns
  name := name
  tail := throwing (parameterList operation)

/-- The signature that reads an attribute. -/
def getterSignature (type : IdlType) (name : String) : Signature where
  returns := valueType type
  name := name
  tail := throwing (if type.isSequence then "uint32_t* _length_attr" else "")

/-- The signature that writes an attribute. -/
def setterSignature (type : IdlType) (name : String) : Signature where
  returns := "void"
  name := name
  tail := throwing
    (localType .input type ++ " attr" ++ if type.isSequence then ", uint32_t _length_attr" else "")

/-- The signatures of a callable. -/
def callableSignatures (settings : Settings) (active : ScopedName) (callable : Decl) :
    List Signature :=
  match callable.kind with
  | .operation operation => [operationSignature settings active callable.name operation]
  | .attributes group =>
    group.names.flatMap fun name =>
      getterSignature group.type name ::
        if group.readonly then [] else [setterSignature group.type name]
  | _ => []

namespace Subject

variable (subject : Subject)

/-- The signatures of the abstract class, in the order of the callables. -/
def signatures : List Signature :=
  subject.callables.flatMap (callableSignatures subject.settings subject.name)

/-- The signatures of the downcast accessors of the final class. -/
def accessorSignatures : List Signature :=
  (subject.tree.linearize subject.id).map fun base =>
    { returns := "::" ++ (subject.tree.scopedName base).text ++ "_ptr"
      name := downcastName (subject.tree.scopedName base)
      tail := "()" }

end Subject

/-! ## The signatures of methods -/

/-- The signature of a method. -/
def Method.signed (method : Method) : Signature :=
  ⟨method.returns, method.name, "(" ++ method.params ++ ")" ++ method.throws⟩

theorem Method.signature_eq_defined (method : Method) (qualifier : String) :
    method.signature qualifier = method.signed.defined qualifier := by
  simp [signature, signed, Signature.defined, String.append_assoc]

theorem Method.signature_eq_declared (method : Method) :
    method.signature "" ++ ";" = method.signed.declared := by
  simp [signature, signed, Signature.declared, String.append_assoc]

theorem RootOperation.ofName?_eq_queryInterface_iff {name : String} :
    ofName? name = some .queryInterface ↔ name = "query_interface" := by
  constructor
  · intro found
    rw [ofName?.eq_def] at found
    split at found <;> simp_all
  · rintro rfl
    simp [ofName?]

theorem signed_operationMethod (settings : Settings) (active : ScopedName) (name : String)
    (operation : Operation) :
    (operationMethod settings active name operation).signed =
      operationSignature settings active name operation := by
  have returns : (operationMethod settings active name operation).returns =
      (operationSignature settings active name operation).returns := by
    rw [operationMethod, operationSignature]
    simp only [← RootOperation.ofName?_eq_queryInterface_iff]
    by_cases root : settings.isRoot active
    · simp only [root, if_true, true_and]
      split
      · rename_i query
        rw [if_pos query]
      · rename_i query
        rw [if_neg query]
    · simp [root]
  rw [Method.signed, returns]
  rfl

theorem map_signed_callableMethods (settings : Settings) (active : ScopedName) (callable : Decl) :
    (callableMethods settings active callable).map Method.signed =
      callableSignatures settings active callable := by
  cases kind : callable.kind with
  | operation operation =>
    simp only [callableMethods, callableSignatures, kind, List.map_singleton,
      signed_operationMethod]
  | attributes group =>
    simp only [callableMethods, callableSignatures, kind, attributeMethods, List.map_flatMap]
    congr 1
    funext name
    cases group.readonly <;> rfl
  | module | interface | forward | typedef | declarator | enum =>
    simp only [callableMethods, callableSignatures, kind, List.map_nil]

namespace Subject

variable (subject : Subject)

theorem map_signed_methods : subject.methods.map Method.signed = subject.signatures := by
  rw [methods_eq, List.map_flatMap, signatures]
  simp only [map_signed_callableMethods]

theorem map_signed_downcasts :
    subject.downcasts.map Method.signed = subject.accessorSignatures := by
  rw [downcasts, List.map_map, accessorSignatures]
  rfl

end Subject

/-! ## Agreement -/

/-- A header and a source agree on signatures. Written at any place, the header is the signatures
line by line, and the source is the same signatures with the qualifier, each with one body. -/
structure Agree (qualifier : String) (signatures : List Signature) (header source : Layout) :
    Prop where
  plain : ∀ signature ∈ signatures, Text.Avoids isShaping signature.declared ∧
    Text.Avoids isShaping (signature.defined qualifier)
  declared : ∀ sheet : Sheet, (sheet.writeAll header).text = sheet.text ++ String.join
    (signatures.map fun signature => sheet.indentation ++ signature.declared ++ "\n")
  defined : ∀ sheet : Sheet, ∃ bodies,
    List.Forall₂ (fun _ body => sheet.IsBody body) signatures bodies ∧
    (sheet.writeAll source).text = sheet.text ++ String.join
      (List.zipWith (fun signature body =>
        sheet.indentation ++ signature.defined qualifier ++ "\n" ++ body) signatures bodies)

/-- A text without braces and line ends is written as one line. -/
theorem Sheet.text_write_plain (sheet : Sheet) {text : String} (plain : Text.Avoids isShaping text)
    (nonempty : text ≠ "") :
    (sheet.write (.line text)).text = sheet.text ++ (sheet.indentation ++ text ++ "\n") := by
  refine sheet.text_write_line (fun lineEnd => ?_) nonempty
  exact absurd (plain '\n' lineEnd) (by decide)

/-- Signatures are written into the header line by line. -/
theorem text_writeAll_declared (sheet : Sheet) {signatures : List Signature}
    (avoids : ∀ signature ∈ signatures, signature.Avoids isShaping) :
    (sheet.writeAll ((signatures.map Signature.declared).map Piece.line)).text =
      sheet.text ++ String.join
        (signatures.map fun signature => sheet.indentation ++ signature.declared ++ "\n") := by
  induction signatures generalizing sheet with
  | nil => simp
  | cons signature signatures ih =>
    have first := sheet.text_write_plain (avoids signature List.mem_cons_self).declared
      signature.declared_ne_empty
    have rest := ih (sheet.write (.line signature.declared))
      fun other listed => avoids other (List.mem_cons_of_mem _ listed)
    simp only [Sheet.indentation_write_line] at rest
    rw [List.map_cons, List.map_cons, Sheet.writeAll_cons, rest, first, List.map_cons,
      String.join_cons, String.append_assoc]

/-- A method is written into the source as its signature and one body. -/
theorem exists_text_defined (sheet : Sheet) {qualifier : String} {method : Method} {inner : Layout}
    (qualified : Text.Avoids isShaping qualifier) (avoids : method.signed.Avoids isShaping)
    (closed : inner.Closed True) :
    ∃ body, sheet.IsBody body ∧ (sheet.writeAll (method.defined qualifier inner)).text =
      sheet.text ++ (sheet.indentation ++ method.signed.defined qualifier ++ "\n" ++ body) := by
  have line := sheet.text_write_plain (avoids.defined qualified) Signature.defined_ne_empty
  obtain ⟨body, written, isBody⟩ :=
    (sheet.write (.line (method.signed.defined qualifier))).exists_body closed.level
      (closed.balanced trivial)
  rw [Sheet.IsBody, Sheet.indentation_write_line] at isBody
  refine ⟨body, isBody, ?_⟩
  rw [Method.defined, Sheet.writeAll_cons, method.signature_eq_defined, written, line,
    String.append_assoc]

/-- Methods are written into the source with one body each. -/
theorem exists_text_writeAll_defined (sheet : Sheet) {qualifier : String} {methods : List Method}
    {inners : List Layout} (qualified : Text.Avoids isShaping qualifier)
    (avoids : ∀ method ∈ methods, method.signed.Avoids isShaping)
    (closed : List.Forall₂ (fun _ inner => inner.Closed True) methods inners) :
    ∃ bodies, List.Forall₂ (fun _ body => sheet.IsBody body) (methods.map Method.signed) bodies ∧
      (sheet.writeAll (List.zipWith (Method.defined qualifier) methods inners).flatten).text =
        sheet.text ++ String.join
          (List.zipWith (fun signature body =>
            sheet.indentation ++ signature.defined qualifier ++ "\n" ++ body)
            (methods.map Method.signed) bodies) := by
  induction closed generalizing sheet with
  | nil => exact ⟨[], .nil, by simp⟩
  | @cons method inner methods inners own _ ih =>
    obtain ⟨body, isBody, first⟩ :=
      exists_text_defined sheet qualified (avoids method List.mem_cons_self) own
    obtain ⟨bodies, areBodies, rest⟩ := ih (sheet.writeAll (method.defined qualifier inner))
      fun other listed => avoids other (List.mem_cons_of_mem _ listed)
    -- The next method is written at the indentation at which this one was.
    have same := sheet.indentation_writeAll (method.keepsLevel_defined qualifier own.level)
    simp only [Sheet.IsBody, same] at areBodies rest
    refine ⟨body :: bodies, .cons isBody areBodies, ?_⟩
    rw [List.zipWith_cons_cons, List.flatten_cons, Sheet.writeAll_append, rest, first,
      List.map_cons, List.zipWith_cons_cons, String.join_cons, String.append_assoc]

/-- **Methods with writable bodies are written into both files, which agree.** -/
theorem Method.exists_agree (root : ScopedName) (qualifier : String) (loops : Nat)
    {unbraced : Prop} {methods : List Method}
    (writable : ∀ method ∈ methods, method.body.Writable unbraced)
    (names : root.Avoids isBrace ∧ unbraced) (qualified : Text.Avoids isShaping qualifier)
    (avoids : ∀ signature ∈ methods.map Method.signed, signature.Avoids isShaping) :
    ∃ header source declared defined,
      layoutAll .declaration root "" loops methods = .ok (header, declared) ∧
      layoutAll .definition root qualifier loops methods = .ok (source, defined) ∧
      Agree qualifier (methods.map Method.signed) header source := by
  obtain ⟨inners, next, done, closed⟩ :=
    exists_layoutAll_definition root qualifier loops writable
  refine ⟨_, _, loops, next, layoutAll_declaration root "" loops methods, done, ?_, ?_, ?_⟩
  · intro signature listed
    exact ⟨(avoids signature listed).declared, (avoids signature listed).defined qualified⟩
  · intro sheet
    have spelled : (methods.map fun method => method.signature "" ++ ";") =
        (methods.map Method.signed).map Signature.declared := by
      simp only [List.map_map, signature_eq_declared]
      rfl
    rw [spelled]
    exact text_writeAll_declared sheet avoids
  · intro sheet
    exact exists_text_writeAll_defined sheet qualified
      (fun method listed => avoids _ (List.mem_map_of_mem listed))
      (closed.imp fun _ _ inner => inner.mono fun _ => names)

/-! ## The classes of an interface -/

theorem avoids_throwing {params : String} (avoids : Text.Avoids chosen params) :
    Text.Avoids chosen (throwing params) :=
  .append (.append (.append (.literal _ rfl) avoids) (.literal _ rfl))
    (show Text.Avoids chosen throwsLocal from .literal _ rfl)

theorem avoids_callableSignatures {settings : Settings} {active : ScopedName} {callable : Decl}
    (avoids : callable.Avoids chosen) :
    ∀ signature ∈ callableSignatures settings active callable, signature.Avoids chosen := by
  cases kind : callable.kind with
  | operation operation =>
    simp only [Decl.Avoids, callableSignatures, kind, List.forall_mem_singleton] at avoids ⊢
    refine ⟨?_, avoids.1, avoids_throwing (avoids_parameterList avoids.2)⟩
    rw [operationSignature]
    split
    · exact .literal _ rfl
    · exact avoids_valueType avoids.2.returns
  | attributes group =>
    simp only [Decl.Avoids, callableSignatures, kind] at avoids ⊢
    intro signature listed
    obtain ⟨name, isName, listed⟩ := List.mem_flatMap.mp listed
    rcases List.mem_cons.mp listed with rfl | setter
    · refine ⟨avoids_valueType avoids.1, avoids.2 name isName, avoids_throwing ?_⟩
      split <;> exact .literal _ rfl
    · split at setter
      · cases setter
      · cases List.mem_singleton.mp setter
        refine ⟨.literal _ rfl, avoids.2 name isName, avoids_throwing ?_⟩
        refine .append (.append (avoids_localType avoids.1 _) (.literal _ rfl)) ?_
        split <;> exact .literal _ rfl
  | module | interface | forward | typedef | declarator | enum =>
    simp [callableSignatures, kind]

theorem avoids_sibling {name : ScopedName} {className : String} (avoids : name.Avoids chosen)
    (simple : Text.Avoids chosen className) :
    Text.Avoids chosen (sibling name className) := by
  rw [sibling]
  split
  · rename_i scope parent
    split
    · exact simple
    · have outer : scope.Avoids chosen := by
        rw [ScopedName.parent?] at parent
        split at parent
        · cases parent
        · cases parent
          exact fun part isPart => avoids part (List.mem_of_mem_dropLast isPart)
      exact .append (.append outer.text (.literal _ rfl)) simple
  · exact simple

theorem Layout.isInfix_indented (inner : Layout) : inner <:+: indented inner :=
  ⟨[.indent], [.dedent], rfl⟩

namespace Subject

variable {subject : Subject}

theorem avoids_signatures (avoids : subject.Avoids chosen) :
    ∀ signature ∈ subject.signatures, signature.Avoids chosen := by
  intro signature listed
  obtain ⟨callable, isCallable, listed⟩ := List.mem_flatMap.mp listed
  exact avoids_callableSignatures (avoids.callables callable isCallable) signature listed

theorem avoids_accessorSignatures (avoids : subject.Avoids chosen) :
    ∀ signature ∈ subject.accessorSignatures, signature.Avoids chosen := by
  intro signature listed
  obtain ⟨base, isBase, rfl⟩ := List.mem_map.mp listed
  have name := avoids.bases base isBase
  exact ⟨.append (.append (.literal _ rfl) name.text) (.literal _ rfl),
    .append (.literal _ rfl) name.joined, .literal _ rfl⟩

theorem avoids_adapterName (avoids : subject.Avoids chosen) :
    Text.Avoids chosen (subject.settings.adapterName subject.name) :=
  (avoids.outer.append (.literal _ rfl)).append avoids.name.text

theorem avoids_qualified (avoids : subject.Avoids chosen) {className : String}
    (simple : Text.Avoids chosen className) :
    Text.Avoids chosen (subject.qualified className) :=
  (avoids.outer.append (.literal _ rfl)).append (avoids_sibling avoids.name simple)

/-- The accessors stand in the final class of the header. -/
theorem isInfix_declareFinal {accessors : Layout} {loops : Nat}
    (done : Method.layoutAll .declaration subject.settings.root "" 0 subject.downcasts =
      .ok (accessors, loops)) :
    ∃ layout, subject.declareFinal = .ok layout ∧ accessors <:+: layout := by
  rw [declareFinal, done]
  refine ⟨_, rfl, ?_⟩
  exact ((List.suffix_append _ _).isInfix.trans (Layout.isInfix_indented _)).trans
    (List.infix_append _ _ _)

/-- The accessors stand at the end of the final class's members in the source. -/
theorem isInfix_defineFinal {accessors : Layout} {loops : Nat}
    (done : Method.layoutAll .definition subject.settings.root
      (subject.qualified (finalClass subject.decl.name) ++ "::") 0 subject.downcasts =
        .ok (accessors, loops)) :
    ∃ layout, subject.defineFinal = .ok layout ∧ accessors <:+: layout := by
  rw [defineFinal, done]
  exact ⟨_, rfl, (List.suffix_append _ _).isInfix⟩

/-- **The two files agree method by method.** If no name holds a brace or a line end, the methods
of the abstract class and the accessors of the final class are written into both files. The header
declares the signatures of the interface, one in each line. The source has the same signatures in
the same order, with the full name of the class in front of the method's name, and each is followed
by one body. -/
theorem files_agree (subject : Subject) (avoids : subject.Avoids isShaping) (loops : Nat) :
    (∃ header source declared defined,
      methodsLayout subject.settings .declaration subject.name loops subject.methods =
        .ok (header, declared) ∧
      methodsLayout subject.settings .definition subject.name loops subject.methods =
        .ok (source, defined) ∧
      Agree (subject.settings.adapterName subject.name ++ "::") subject.signatures header
        source) ∧
    ∃ header source declared defined,
      Method.layoutAll .declaration subject.settings.root "" 0 subject.downcasts =
        .ok (header, declared) ∧
      Method.layoutAll .definition subject.settings.root
        (subject.qualified (finalClass subject.decl.name) ++ "::") 0 subject.downcasts =
        .ok (source, defined) ∧
      (∃ layout, subject.declareFinal = .ok layout ∧ header <:+: layout) ∧
      (∃ layout, subject.defineFinal = .ok layout ∧ source <:+: layout) ∧
      Agree (subject.qualified (finalClass subject.decl.name) ++ "::") subject.accessorSignatures
        header source := by
  have unbraced : subject.Avoids isBrace := avoids.mono Text.Shaping.shaping
  constructor
  · have qualified : Text.Avoids isShaping (subject.settings.adapterName subject.name ++ "::") :=
      .append (avoids_adapterName avoids) (.literal _ rfl)
    obtain ⟨header, source, declared, defined, inHeader, inSource, agree⟩ :=
      Method.exists_agree subject.settings.root _ loops subject.writable_methods
        ⟨unbraced.root, unbraced⟩ qualified
        (subject.map_signed_methods.symm ▸ avoids_signatures avoids)
    rw [map_signed_methods] at agree
    exact ⟨header, source, declared, defined, inHeader, inSource, agree⟩
  · have own : Text.Avoids isShaping (finalClass subject.decl.name) :=
      .append (.literal _ rfl) avoids.simple
    have qualified :
        Text.Avoids isShaping (subject.qualified (finalClass subject.decl.name) ++ "::") :=
      .append (avoids_qualified avoids own) (.literal _ rfl)
    obtain ⟨header, source, declared, defined, inHeader, inSource, agree⟩ :=
      Method.exists_agree subject.settings.root _ 0 (subject.writable_downcasts True)
        ⟨unbraced.root, trivial⟩ qualified
        (subject.map_signed_downcasts.symm ▸ avoids_accessorSignatures avoids)
    rw [map_signed_downcasts] at agree
    exact ⟨header, source, declared, defined, inHeader, inSource, isInfix_declareFinal inHeader,
      isInfix_defineFinal inSource, agree⟩

/-- An interface in a module, with an operation and attributes that can be written. -/
def counter : Subject :=
  let draft := ((Draft.empty "d.idl").addModule none "dom").addInterface (some 0) "Counter"
  let numbers : IdlType := .sequence ⟨["dom", "Numbers"]⟩ (.basic .long)
  let draft := draft.addOperation (some 1) "add" ⟨.void, [⟨"values", numbers, .input⟩]⟩
  let draft := draft.addAttributes (some 1) ⟨.basic .long, false, ["total"]⟩
  let parts := { Interface.empty with callables := [2, 3] }
  { settings := .default
    tree := draft.tree
    guard := "d"
    id := 1
    decl := ⟨"Counter", ⟨["dom", "Counter"]⟩, "d.idl", .interface parts⟩ }

theorem counter_files_agree :
    counter.Avoids isShaping ∧
      counter.signatures.map Signature.declared =
        ["void add(uint32_t _length_values, const int32_t* values) throw(std::exception&);",
         "int32_t total() throw(std::exception&);",
         "void total(int32_t attr) throw(std::exception&);"] ∧
      ∃ header source declared defined,
        methodsLayout counter.settings .declaration counter.name 0 counter.methods =
          .ok (header, declared) ∧
        methodsLayout counter.settings .definition counter.name 0 counter.methods =
          .ok (source, defined) ∧
        Agree "CCI::dom::Counter::" counter.signatures header source := by
  have avoids : counter.Avoids isShaping := by decide +kernel
  exact ⟨avoids, by decide +kernel, (files_agree counter avoids 0).1⟩

end Subject

end IdlBridge.Adapter
