import IdlBridge.Markup.Element
import IdlBridge.Proofs.Success
import Mathlib.Data.List.TakeWhile

/-!
# How attributes are written

Attributes stand in a tag one behind the other, each as a key, an equals sign and a quoted value,
with blanks where one likes and every key at most once (`WritesAttributes`, `Fresh`). The scan of a
tag reports on its attributes from left to right. It finds no fault exactly in a text of this form,
and then reports what is written (`reportsFrom_eq_map_ok_iff`). The element of a tag gets the
attributes that are reported without a fault, with the references in their values replaced.
-/

set_option autoImplicit false

namespace IdlBridge.Markup

/-! ## The written form -/

/-- Nothing but blanks. -/
def Blank (text : List Char) : Prop :=
  ∀ c ∈ text, isSpace c = true

/-- A key has a first character and no blanks. Behind the first character it has no equals sign. -/
def IsKey : List Char → Prop
  | [] => False
  | c :: rest => isSpace c = false ∧ ∀ d ∈ rest, isSpace d = false ∧ d ≠ '='

/-- The text is an attribute with the given key and value. -/
inductive WritesAttribute (key value : List Char) : List Char → Prop
  | intro {before after : List Char} {quote : Char} (isKey : IsKey key) (blankBefore : Blank before)
      (blankAfter : Blank after) (quotes : isQuote quote = true) (unquoted : quote ∉ value) :
      WritesAttribute key value (key ++ before ++ '=' :: (after ++ quote :: (value ++ [quote])))

/-- The text is a list of attributes. -/
inductive WritesAttributes : List (List Char × List Char) → List Char → Prop
  | nil {blanks : List Char} (blank : Blank blanks) : WritesAttributes [] blanks
  | cons {blanks key value text rest : List Char} {pairs : List (List Char × List Char)}
      (blank : Blank blanks) (first : WritesAttribute key value text)
      (others : WritesAttributes pairs rest) :
      WritesAttributes ((key, value) :: pairs) (blanks ++ text ++ rest)

/-- The keys are different from each other and from those that were already assigned. -/
def Fresh (assigned : List (List Char)) (pairs : List (List Char × List Char)) : Prop :=
  (pairs.map Prod.fst).Nodup ∧ ∀ pair ∈ pairs, pair.1 ∉ assigned

theorem fresh_cons_iff {assigned : List (List Char)} {key value : List Char}
    {pairs : List (List Char × List Char)} :
    Fresh assigned ((key, value) :: pairs) ↔ key ∉ assigned ∧ Fresh (key :: assigned) pairs := by
  simp only [Fresh, List.map_cons, List.nodup_cons, List.mem_cons, List.mem_map, not_or]
  constructor
  · rintro ⟨⟨single, distinct⟩, unassigned⟩
    refine ⟨unassigned _ (.inl rfl), distinct, ?_⟩
    intro pair listed
    exact ⟨fun same => single ⟨pair, listed, same⟩, unassigned pair (.inr listed)⟩
  · rintro ⟨unassigned, distinct, others⟩
    refine ⟨⟨?_, distinct⟩, ?_⟩
    · rintro ⟨pair, listed, same⟩
      exact (others pair listed).1 same
    · rintro pair (rfl | listed)
      · exact unassigned
      · exact (others pair listed).2

/-! ## Scanning what is written -/

theorem isSpace_equals : isSpace '=' = false := by decide

theorem isSpace_of_isQuote {c : Char} (quotes : isQuote c = true) : isSpace c = false := by
  simp only [isQuote, Bool.or_eq_true, beq_iff_eq] at quotes
  rcases quotes with rfl | rfl <;> decide

theorem Blank.dropWhile_append {blanks : List Char} (blank : Blank blanks) (text : List Char) :
    (blanks ++ text).dropWhile isSpace = text.dropWhile isSpace :=
  List.dropWhile_append_of_pos blank

theorem dropWhile_isSpace_cons {c : Char} (solid : isSpace c = false) (text : List Char) :
    (c :: text).dropWhile isSpace = c :: text := by
  rw [List.dropWhile_cons, solid]
  rfl

/-- The value of an attribute ends at the first quote like the one that opened it. -/
theorem span_value {value : List Char} {quote : Char} (unquoted : quote ∉ value)
    (rest : List Char) :
    (value ++ quote :: rest).takeWhile (· != quote) = value ∧
      (value ++ quote :: rest).dropWhile (· != quote) = quote :: rest := by
  have inside : ∀ c ∈ value, (c != quote) = true := by
    intro c listed
    simp only [bne_iff_ne, ne_eq]
    rintro rfl
    exact unquoted listed
  constructor
  · rw [List.takeWhile_append_of_pos inside, List.takeWhile_cons_of_neg (by simp), List.append_nil]
  · rw [List.dropWhile_append_of_pos inside, List.dropWhile_cons_of_neg (by simp)]

/-- The key of an attribute ends at the first blank or equals sign behind its first character. -/
theorem span_key {rest before : List Char} (solid : ∀ d ∈ rest, isSpace d = false ∧ d ≠ '=')
    (blank : Blank before) (text : List Char) :
    (rest ++ before ++ '=' :: text).takeWhile (fun d => !(d == '=' || isSpace d)) = rest ∧
      ((rest ++ before ++ '=' :: text).dropWhile fun d => !(d == '=' || isSpace d)).dropWhile
        isSpace = '=' :: text := by
  have inside : ∀ d ∈ rest, (!(d == '=' || isSpace d)) = true := by
    intro d listed
    simp [solid d listed]
  have stops : (before ++ '=' :: text).takeWhile (fun d => !(d == '=' || isSpace d)) = [] ∧
      (before ++ '=' :: text).dropWhile (fun d => !(d == '=' || isSpace d)) =
        before ++ '=' :: text := by
    cases before with
    | nil => exact ⟨rfl, rfl⟩
    | cons c more =>
      have isBlank := blank c List.mem_cons_self
      constructor
      · rw [List.cons_append, List.takeWhile_cons_of_neg (by simp [isBlank])]
      · rw [List.cons_append, List.dropWhile_cons_of_neg (by simp [isBlank])]
  rw [List.append_assoc]
  constructor
  · rw [List.takeWhile_append_of_pos inside, stops.1, List.append_nil]
  · rw [List.dropWhile_append_of_pos inside, stops.2, blank.dropWhile_append,
      dropWhile_isSpace_cons isSpace_equals]

/-- The scan of a text that starts with a key and an equals sign, under a new key. -/
theorem reportsFrom_of_key {assigned : List (List Char)} {text more value : List Char}
    {c : Char} (first : text.dropWhile isSpace = c :: more)
    (equals : (more.dropWhile fun d => !(d == '=' || isSpace d)).dropWhile isSpace = '=' :: value)
    (new : (c :: more.takeWhile fun d => !(d == '=' || isSpace d)) ∉ assigned) {quote : Char}
    {inner after : List Char} (opened : value.dropWhile isSpace = quote :: inner)
    (quotes : isQuote quote = true) (closed : inner.dropWhile (· != quote) = quote :: after) :
    reportsFrom assigned text =
      .ok (c :: more.takeWhile fun d => !(d == '=' || isSpace d),
          inner.takeWhile (· != quote)) ::
        reportsFrom ((c :: more.takeWhile fun d => !(d == '=' || isSpace d)) :: assigned)
          after := by
  rw [reportsFrom]
  split
  · simp_all
  · rename_i c' more' first'
    cases first.symm.trans first'
    split
    · simp_all
    · rename_i d rest equals'
      cases equals.symm.trans equals'
      rw [if_neg (by simp), if_neg new]
      split
      · simp_all
      · rename_i quote' inner' opened'
        cases opened.symm.trans opened'
        rw [if_pos quotes]
        split
        · simp_all
        · rename_i closed'
          cases closed.symm.trans closed'
          rfl

/-- An attribute under a new key is reported, and the scan goes on behind it. -/
theorem reportsFrom_append {assigned : List (List Char)} {blanks key value text : List Char}
    (blank : Blank blanks) (written : WritesAttribute key value text) (new : key ∉ assigned)
    (rest : List Char) :
    reportsFrom assigned (blanks ++ text ++ rest) =
      .ok (key, value) :: reportsFrom (key :: assigned) rest := by
  cases written with
  | @intro before after quote isKey blankBefore blankAfter quotes unquoted =>
    cases key with
    | nil => exact isKey.elim
    | cons c more =>
      obtain ⟨solid, others⟩ := isKey
      obtain ⟨wholeKey, behindKey⟩ := span_key others blankBefore
        (after ++ quote :: (value ++ quote :: rest))
      obtain ⟨wholeValue, behindValue⟩ := span_value unquoted rest
      have first : (blanks ++ (c :: more ++ before ++ '=' :: (after ++ quote :: (value ++ [quote])))
          ++ rest).dropWhile isSpace =
            c :: (more ++ before ++ '=' :: (after ++ quote :: (value ++ quote :: rest))) := by
        rw [List.append_assoc, blank.dropWhile_append]
        simp [dropWhile_isSpace_cons solid]
      have opened : (after ++ quote :: (value ++ quote :: rest)).dropWhile isSpace =
          quote :: (value ++ quote :: rest) := by
        rw [blankAfter.dropWhile_append, dropWhile_isSpace_cons (isSpace_of_isQuote quotes)]
      rw [← wholeKey] at new
      have scanned := reportsFrom_of_key first behindKey new opened quotes behindValue
      rwa [wholeKey, wholeValue] at scanned

/-- **A list of attributes is reported as it is written.** -/
theorem WritesAttributes.reportsFrom_eq {assigned : List (List Char)}
    {pairs : List (List Char × List Char)} {text : List Char}
    (written : WritesAttributes pairs text) (fresh : Fresh assigned pairs) :
    reportsFrom assigned text = pairs.map .ok := by
  induction written generalizing assigned with
  | nil blank =>
    have nothing : _ = [] := List.dropWhile_eq_nil_iff.mpr blank
    rw [reportsFrom]
    split
    · rfl
    · simp_all
  | cons blank first others ih =>
    obtain ⟨new, fresh⟩ := fresh_cons_iff.mp fresh
    rw [reportsFrom_append blank first new, ih fresh]
    rfl

/-! ## Reports without faults -/

/-- What is passed over in front of a character is blank. -/
theorem exists_blank (text : List Char) : ∃ blanks, Blank blanks ∧
    text = blanks ++ text.dropWhile isSpace :=
  ⟨text.takeWhile isSpace, fun _ listed => List.mem_takeWhile_imp listed,
    List.takeWhile_append_dropWhile.symm⟩

/-- A character that is not passed over fails the test. -/
theorem not_of_dropWhile {test : Char → Bool} {text rest : List Char} {c : Char}
    (stops : text.dropWhile test = c :: rest) : test c = false := by
  have head := List.head?_dropWhile_not test text
  rwa [stops] at head

/-- What a scan passes over is blank, and the key and the value it takes are well-formed. -/
theorem exists_writesAttribute {text more rest value after : List Char} {c d quote q : Char}
    (first : text.dropWhile isSpace = c :: more)
    (equals : (more.dropWhile fun d => !(d == '=' || isSpace d)).dropWhile isSpace = d :: rest)
    (isEquals : d = '=') (opened : rest.dropWhile isSpace = quote :: value)
    (quotes : isQuote quote = true) (closed : value.dropWhile (· != quote) = q :: after) :
    ∃ blanks written, Blank blanks ∧ text = blanks ++ written ++ after ∧
      WritesAttribute (c :: more.takeWhile fun d => !(d == '=' || isSpace d))
        (value.takeWhile (· != quote)) written := by
  subst isEquals
  obtain ⟨blanks, blank, wholeText⟩ := exists_blank text
  obtain ⟨before, blankBefore, behindKey⟩ :=
    exists_blank (more.dropWhile fun d => !(d == '=' || isSpace d))
  obtain ⟨gap, blankGap, behindEquals⟩ := exists_blank rest
  have wholeMore : more.takeWhile (fun d => !(d == '=' || isSpace d)) ++
      (before ++ '=' :: (gap ++ quote :: value)) = more := by
    rw [← opened, ← behindEquals, ← equals, ← behindKey, List.takeWhile_append_dropWhile]
  obtain rfl : q = quote := by simpa using not_of_dropWhile closed
  have wholeValue : value.takeWhile (· != q) ++ q :: after = value := by
    rw [← closed, List.takeWhile_append_dropWhile]
  refine ⟨blanks, _, blank, ?_, .intro ⟨not_of_dropWhile first, ?_⟩ blankBefore blankGap quotes ?_⟩
  · rw [wholeText, first]
    simp only [List.append_assoc, List.cons_append, List.nil_append, wholeValue, wholeMore]
  · intro d listed
    have inside := List.mem_takeWhile_imp listed
    simp only [Bool.not_eq_true', Bool.or_eq_false_iff, beq_eq_false_iff_ne] at inside
    exact ⟨inside.2, inside.1⟩
  · intro listed
    simpa using List.mem_takeWhile_imp listed

/-- **Only a list of attributes is reported without a fault.** -/
theorem writesAttributes_of_reportsFrom {assigned : List (List Char)} {text : List Char}
    {pairs : List (List Char × List Char)} (reported : reportsFrom assigned text = pairs.map .ok) :
    WritesAttributes pairs text ∧ Fresh assigned pairs := by
  fun_induction reportsFrom assigned text generalizing pairs with
  | case1 assigned text nothing =>
    cases pairs with
    | nil => exact ⟨.nil (List.dropWhile_eq_nil_iff.mp nothing), by simp [Fresh]⟩
    | cons => cases reported
  | case7 assigned text c more first key d rest equals isEquals new quote value opened quotes q
      after closed =>
    rename_i ih
    cases pairs with
    | nil => cases reported
    | cons pair pairs =>
      simp only [List.map_cons, List.cons.injEq, Except.ok.injEq] at reported
      obtain ⟨rfl, reported⟩ := reported
      obtain ⟨written, fresh⟩ := ih reported
      obtain ⟨blanks, text', blank, rfl, first'⟩ :=
        exists_writesAttribute first equals (not_not.mp isEquals) opened quotes closed
      exact ⟨.cons blank first' written, fresh_cons_iff.mpr ⟨new, fresh⟩⟩
  -- In all other cases the first report is a fault.
  | _ => cases pairs <;> cases reported

/-- **A tag is scanned without faults exactly if it is a list of attributes under different keys**,
and then the scan reports these. -/
theorem reportsFrom_eq_map_ok_iff {assigned : List (List Char)} {text : List Char}
    {pairs : List (List Char × List Char)} :
    reportsFrom assigned text = pairs.map .ok ↔
      WritesAttributes pairs text ∧ Fresh assigned pairs :=
  ⟨writesAttributes_of_reportsFrom, fun ⟨written, fresh⟩ => written.reportsFrom_eq fresh⟩

theorem fresh_nil_iff {pairs : List (List Char × List Char)} :
    Fresh [] pairs ↔ (pairs.map Prod.fst).Nodup := by
  simp [Fresh]

/-! ## The attributes of an element -/

/-- The attribute has the written key, and the written value up to references. -/
def Decodes (written : List Char × List Char) (attr : String × String) : Prop :=
  attr.1 = String.ofList written.1 ∧ unescape? written.2 = some attr.2.toList

theorem readAttrs_eq_ok_iff {name : String} {written : List (List Char × List Char)}
    {attrs : List (String × String)} :
    Element.readAttrs name written = .ok attrs ↔ List.Forall₂ Decodes written attrs := by
  rw [Element.readAttrs, mapM_eq_ok_iff]
  refine iff_of_eq (congrArg (List.Forall₂ · written attrs) ?_)
  funext pair attr
  obtain ⟨key, value⟩ := pair
  obtain ⟨attrKey, attrValue⟩ := attr
  simp only [Decodes]
  cases unescape? value with
  | none => simp
  | some chars => simp [eq_comm, ← String.toList_inj]

theorem filterMap_toOption_ok (pairs : List (List Char × List Char)) :
    (pairs.map .ok : List (Except AttributeFault (List Char × List Char))).filterMap
      Except.toOption = pairs := by
  rw [List.filterMap_map]
  exact List.filterMap_some

end IdlBridge.Markup
