import IdlBridge.Proofs.Document.FactIndex
import IdlBridge.Proofs.Document.LoadedTypes

/-!
# Outlines that agree

Two outlines agree if every name leads to the same kind of thing in both, under whatever number, and
if the same typedefs, callables and bases are registered (`Outline.Agrees`). Outlines that follow
the same facts agree (`Follows.agrees`). Between them meanings carry over (`Agrees.means`), and so
does having a meaning for everything (`Agrees.meaningful`): a resolver that works along the
declarations cannot tell in which order they stood.
-/

set_option autoImplicit false

namespace IdlBridge.Outline

/-- What a name leads to in two outlines is the same, apart from the numbers. -/
inductive SameLead (outline other : Outline) : Option DeclId → Option DeclId → Prop
  | nothing : SameLead outline other none none
  | interface {id otherId : DeclId} {parts otherParts : Interface}
      (kind : outline.draft.tree.kind? id = some (.interface parts))
      (otherKind : other.draft.tree.kind? otherId = some (.interface otherParts)) :
      SameLead outline other (some id) (some otherId)
  | forward {id otherId : DeclId} {target otherTarget : Option DeclId}
      (kind : outline.draft.tree.kind? id = some (.forward target))
      (otherKind : other.draft.tree.kind? otherId = some (.forward otherTarget)) :
      SameLead outline other (some id) (some otherId)
  | enum {id otherId : DeclId} {enumerators otherEnumerators : List String}
      (kind : outline.draft.tree.kind? id = some (.enum enumerators))
      (otherKind : other.draft.tree.kind? otherId = some (.enum otherEnumerators)) :
      SameLead outline other (some id) (some otherId)
  | typedef {name scope : ScopedName} {expression : String} {id otherId : DeclId}
      {target otherTarget : Option DeclId}
      (kind : outline.draft.tree.kind? id = some (.declarator target))
      (otherKind : other.draft.tree.kind? otherId = some (.declarator otherTarget))
      (listed : ⟨id, name, expression, scope⟩ ∈ outline.aliases)
      (otherListed : ⟨otherId, name, expression, scope⟩ ∈ other.aliases) :
      SameLead outline other (some id) (some otherId)

/-- The outlines register the same things, and names lead to the same in both. -/
structure Agrees (outline other : Outline) : Prop where
  registered : outline.Registered
  otherRegistered : other.Registered
  leads : ∀ name, SameLead outline other (outline.draft.tree.find? name)
    (other.draft.tree.find? name)
  aliases : ∀ entry ∈ outline.aliases, ∃ declarator, { entry with declarator } ∈ other.aliases
  callables : ∀ callable ∈ outline.callables, ∃ id, { callable with id } ∈ other.callables
  bases : ∀ base ∈ outline.bases, ∃ interface, { base with interface } ∈ other.bases

/-- **Outlines that follow the same facts agree.** -/
theorem Follows.agrees {outline other : Outline} {facts others : List Fact}
    (follows : outline.Follows facts) (otherFollows : other.Follows others)
    (same : ∀ fact, fact ∈ facts ↔ fact ∈ others) (registered : outline.Registered)
    (otherRegistered : other.Registered) : outline.Agrees other where
  registered := registered
  otherRegistered := otherRegistered
  leads name := by
    by_cases isInterface : ∃ parts, Fact.interface name parts ∈ facts
    · obtain ⟨parts, stated⟩ := isInterface
      obtain ⟨id, contents, leads, kind⟩ := follows.interface name parts stated
      obtain ⟨otherId, otherContents, otherLeads, otherKind⟩ :=
        otherFollows.interface name parts ((same _).mp stated)
      rw [leads, otherLeads]
      exact .interface kind otherKind
    by_cases isEnum : Fact.enum name ∈ facts
    · obtain ⟨id, enumerators, leads, kind⟩ := follows.enum name isEnum
      obtain ⟨otherId, otherEnumerators, otherLeads, otherKind⟩ :=
        otherFollows.enum name ((same _).mp isEnum)
      rw [leads, otherLeads]
      exact .enum kind otherKind
    by_cases isTypedef : ∃ scope expression, Fact.typedef scope name expression ∈ facts
    · obtain ⟨scope, expression, stated⟩ := isTypedef
      obtain ⟨id, target, leads, kind, listed⟩ := follows.typedef scope name expression stated
      obtain ⟨otherId, otherTarget, otherLeads, otherKind, otherListed⟩ :=
        otherFollows.typedef scope name expression ((same _).mp stated)
      rw [leads, otherLeads]
      exact .typedef kind otherKind listed otherListed
    have undeclared : ∀ parts, Fact.interface name parts ∉ facts :=
      fun parts stated => isInterface ⟨parts, stated⟩
    by_cases isForward : Fact.forward name ∈ facts
    · obtain ⟨id, target, leads, kind⟩ := follows.forward name isForward undeclared
      obtain ⟨otherId, otherTarget, otherLeads, otherKind⟩ := otherFollows.forward name
        ((same _).mp isForward) fun parts stated => undeclared parts ((same _).mpr stated)
      rw [leads, otherLeads]
      exact .forward kind otherKind
    -- No fact is about the name.
    have unstated : ∀ fact ∈ facts, fact.declared? ≠ some name ∧ fact ≠ .forward name := by
      intro fact stated
      refine ⟨fun declares => ?_, fun announces => isForward (announces ▸ stated)⟩
      cases fact with
      | interface =>
        cases declares
        exact isInterface ⟨_, stated⟩
      | enum =>
        cases declares
        exact isEnum stated
      | typedef =>
        cases declares
        exact isTypedef ⟨_, _, stated⟩
      | _ => cases declares
    rw [follows.nothing name unstated,
      otherFollows.nothing name fun fact stated => unstated fact ((same fact).mpr stated)]
    exact .nothing
  aliases entry listed := by
    obtain ⟨declarator, -, -, -, otherListed⟩ :=
      otherFollows.typedef _ _ _ ((same _).mp (follows.aliases entry listed))
    exact ⟨declarator, otherListed⟩
  callables callable listed := by
    obtain ⟨partner, otherListed, scope, text⟩ := (otherFollows.callables _ _).mp
      ((same _).mp ((follows.callables _ _).mpr ⟨callable, listed, rfl, rfl⟩))
    exact ⟨partner.id, by rw [← scope, ← text]; exact otherListed⟩
  bases base listed := by
    obtain ⟨partner, otherListed, scope, reference⟩ := (otherFollows.bases _ _).mp
      ((same _).mp ((follows.bases _ _).mpr ⟨base, listed, rfl, rfl⟩))
    exact ⟨partner.interface, by rw [← scope, ← reference]; exact otherListed⟩

namespace Agrees

variable {outline other : Outline}

/-! ## Meanings carry over -/

theorem find?_eq_none (agrees : outline.Agrees other) {name : ScopedName}
    (nowhere : outline.draft.tree.find? name = none) : other.draft.tree.find? name = none := by
  have leads := agrees.leads name
  rw [nowhere] at leads
  generalize other.draft.tree.find? name = found at leads
  cases leads
  rfl

/-- A name that leads somewhere leads to the same in the other outline. -/
theorem exists_lead (agrees : outline.Agrees other) {name : ScopedName} {id : DeclId}
    (found : outline.draft.tree.find? name = some id) :
    ∃ otherId, other.draft.tree.find? name = some otherId ∧
      SameLead outline other (some id) (some otherId) := by
  have leads := agrees.leads name
  rw [found] at leads
  cases otherFound : other.draft.tree.find? name with
  | none =>
    rw [otherFound] at leads
    cases leads
  | some otherId =>
    rw [otherFound] at leads
    exact ⟨otherId, rfl, leads⟩

theorem firstDeclared (agrees : outline.Agrees other) {names : List ScopedName} {name : ScopedName}
    {id : DeclId} (first : outline.draft.tree.FirstDeclared names name id) :
    ∃ otherId, other.draft.tree.FirstDeclared names name otherId ∧
      SameLead outline other (some id) (some otherId) := by
  obtain ⟨before, after, split, absent, found⟩ := first
  obtain ⟨otherId, otherFound, leads⟩ := agrees.exists_lead found
  exact ⟨otherId, ⟨before, after, split,
    fun earlier listed => agrees.find?_eq_none (absent earlier listed), otherFound⟩, leads⟩

theorem standsFor (agrees : outline.Agrees other) {scope name : ScopedName} {text : String}
    {id : DeclId} (stands : outline.StandsFor scope text name id) :
    ∃ otherId, other.StandsFor scope text name otherId ∧
      SameLead outline other (some id) (some otherId) := by
  obtain ⟨otherId, first, leads⟩ := agrees.firstDeclared stands.first
  exact ⟨otherId, ⟨stands.notBasic, stands.notSequence, first⟩, leads⟩

/-- A phrase means the type in the other outline too. A typedef is found there by what it says. -/
def Transfers (outline other : Outline) : TypePhrase → IdlType → Prop
  | .expression scope text, type => other.Means (.expression scope text) type
  | .typedef declarator, type => ∀ entry ∈ outline.aliases, entry.declarator = declarator →
      ∀ otherId, { entry with declarator := otherId } ∈ other.aliases →
        other.Means (.typedef otherId) type

theorem transfers (agrees : outline.Agrees other) {phrase : TypePhrase} {type : IdlType}
    (means : outline.Means phrase type) : Transfers outline other phrase type := by
  induction means with
  | basic spelled => exact .basic spelled
  | interface stands kind =>
    obtain ⟨otherId, otherStands, leads⟩ := agrees.standsFor stands
    cases leads with
    | interface _ otherKind => exact .interface otherStands otherKind
    | forward otherwise | enum otherwise | typedef otherwise => cases kind.symm.trans otherwise
  | forward stands kind =>
    obtain ⟨otherId, otherStands, leads⟩ := agrees.standsFor stands
    cases leads with
    | forward _ otherKind => exact .forward otherStands otherKind
    | interface otherwise | enum otherwise | typedef otherwise => cases kind.symm.trans otherwise
  | enum stands kind =>
    obtain ⟨otherId, otherStands, leads⟩ := agrees.standsFor stands
    cases leads with
    | enum _ otherKind => exact .enum otherStands otherKind
    | interface otherwise | forward otherwise | typedef otherwise =>
      cases kind.symm.trans otherwise
  | named stands kind _ ih =>
    obtain ⟨otherId, otherStands, leads⟩ := agrees.standsFor stands
    cases leads with
    | typedef _ otherKind listed otherListed =>
      exact .named otherStands otherKind (ih _ listed rfl otherId otherListed)
    | interface otherwise | forward otherwise | enum otherwise => cases kind.symm.trans otherwise
  | @sequence entry inner element listed written _ flat ih =>
    intro again alsoListed declarator otherId otherListed
    cases agrees.registered.alias_unique listed alsoListed declarator
    have name := agrees.otherRegistered.name_eq otherListed
    rw [← agrees.registered.name_eq listed, name]
    exact Means.sequence otherListed written ih flat
  | @plain entry type listed notSequence _ ih =>
    intro again alsoListed declarator otherId otherListed
    cases agrees.registered.alias_unique listed alsoListed declarator
    exact Means.plain otherListed notSequence ih

/-- **Expressions mean the same in outlines that agree.** -/
theorem means (agrees : outline.Agrees other) {scope : ScopedName} {text : String} {type : IdlType}
    (means : outline.Means (.expression scope text) type) :
    other.Means (.expression scope text) type :=
  agrees.transfers means

/-- So do typedefs. -/
theorem means_typedef (agrees : outline.Agrees other) {entry : TypeAlias} {type : IdlType}
    (means : outline.Means (.typedef entry.declarator) type) (listed : entry ∈ outline.aliases)
    {otherId : DeclId} (otherListed : { entry with declarator := otherId } ∈ other.aliases) :
    other.Means (.typedef otherId) type :=
  agrees.transfers means entry listed rfl otherId otherListed

theorem callableMeans (agrees : outline.Agrees other) {scope : ScopedName} {text : CallableText}
    {types : CallableTypes} (means : outline.CallableMeans scope text types) :
    other.CallableMeans scope text types := by
  cases text with
  | operation returns params =>
    cases types with
    | operation signature =>
      exact ⟨agrees.means means.1, means.2.imp fun _ _ param =>
        ⟨param.name, param.direction, agrees.means param.type⟩⟩
    | attributes => exact means.elim
  | attributes expression =>
    cases types with
    | attributes type => exact agrees.means means
    | operation => exact means.elim

/-- **If everything has a meaning in one outline, so it has in the other.** -/
theorem meaningful (agrees : outline.Agrees other) (back : other.Agrees outline)
    (meaningful : outline.Meaningful) : other.Meaningful where
  aliases entry otherListed := by
    obtain ⟨declarator, listed⟩ := back.aliases entry otherListed
    obtain ⟨type, means⟩ := meaningful.aliases _ listed
    exact ⟨type, agrees.means_typedef means listed otherListed⟩
  callables callable otherListed text isText := by
    obtain ⟨id, listed⟩ := back.callables callable otherListed
    obtain ⟨type, means⟩ := meaningful.callables _ listed text isText
    exact ⟨type, agrees.means means⟩
  bases base otherListed := by
    obtain ⟨interface, listed⟩ := back.bases base otherListed
    obtain ⟨name, isCandidate, found⟩ := meaningful.bases _ listed
    obtain ⟨id, found⟩ := Option.isSome_iff_exists.mp found
    obtain ⟨otherId, otherFound, -⟩ := agrees.exists_lead found
    exact ⟨name, isCandidate, by rw [otherFound]; rfl⟩

end Agrees

end IdlBridge.Outline
