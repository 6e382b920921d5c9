import ParseView.Proofs.WordComplement

/-!
# What constant expressions are worth

`Expression` has the constant expressions of scripts, `Expression.value` what each of them
is worth by the rules of scripts, and `WrittenAs` tells the trees that stand for it. How
scripts read a number from a text is left open: the evaluator never does.

The evaluator takes a text that says true or false for that truth value as soon as it meets
one, and not only when the whole expression has been worked out. An operator behind it can
tell the difference in one case, the negation of "false". The only other operand that is not
treated as scripts do is a number that the complement cuts (`Operator.Fits`). So the parts
of an expression are all read right if and only if each operator fits its operand.

Where one does not, the value is another one, but of the same kind: a truth value stays one,
a number a number. A rule looks at no more than that, and judges both alike.
-/

namespace ParseView.Aria

open ParseView.Tree (Value)
open Binary64 (ofInt)

/-! ## The rules of scripts -/

/-- A value of a script as the value of an attribute: a text may say a truth value. -/
def AttributeValue.asAttribute : AttributeValue → AttributeValue
  | .text s => .ofText s
  | value => value

/-- The values that count as false. -/
def Falsy : AttributeValue → Prop
  | .undefined => True
  | .boolean b => b = false
  | .text s => s = ""
  | .number x => x.isZero = true ∨ x.isNaN = true

instance : DecidablePred Falsy
  | .undefined => .isTrue trivial
  | .boolean b => inferInstanceAs (Decidable (b = false))
  | .text s => inferInstanceAs (Decidable (s = ""))
  | .number x => inferInstanceAs (Decidable (x.isZero = true ∨ x.isNaN = true))

inductive Operator where
  | not
  | minus
  | plus
  | complement

namespace Operator

def sign : Operator → String
  | .not => "!"
  | .minus => "-"
  | .plus => "+"
  | .complement => "~"

variable (numberOf : String → Binary64)

/-- The number that a value is converted to, given those of texts. -/
def operand : AttributeValue → Binary64
  | .undefined => .nan
  | .boolean b => ofInt b.toNat
  | .text s => numberOf s
  | .number x => x

def apply : Operator → AttributeValue → AttributeValue
  | .not, value => .boolean (decide (Falsy value))
  | .minus, value => .number (operand numberOf value).neg
  | .plus, value => .number (operand numberOf value)
  | .complement, value => .number (operand numberOf value).bitwiseNot

/-- The operands that an operator treats as scripts do. -/
def Fits : Operator → AttributeValue → Prop
  | .not, .text s => s ≠ "false"
  | .complement, .number x =>
    x.whole < 2 ^ 63 ∧ (-2 ^ 63 ≤ x.whole ∨ (2 : Int) ^ 32 ∣ x.whole)
  | _, _ => True

end Operator

/-- The constant expressions. -/
inductive Expression where
  | boolean (b : Bool)
  | number (x : Binary64)
  | text (s : String)
  | undefined
  /-- A template into which nothing is filled. -/
  | template (s : String)
  | unary (op : Operator) (operand : Expression)

namespace Expression

def value (numberOf : String → Binary64) : Expression → AttributeValue
  | .boolean b => .boolean b
  | .number x => .number x
  | .text s | .template s => .text s
  | .undefined => .undefined
  | .unary op operand => op.apply numberOf (operand.value numberOf)

/-- An expression and the operands in it. -/
def parts : Expression → List Expression
  | .unary op operand => .unary op operand :: operand.parts
  | e => [e]

/-- The pieces of a template and the text that they make. -/
inductive PiecesText : List Value → String → Prop
  | nil : PiecesText [] ""
  | cons {head : Tree.Head} {fields parts : Fields Value} {pieces : List Value}
      {text rest : String} (hvalue : Fields.get? "value" fields = some (.object parts))
      (hcooked : Fields.get? "cooked" parts = some (.string text))
      (hrest : PiecesText pieces rest) : PiecesText (.node head fields :: pieces) (text ++ rest)

/-- The trees that stand for an expression. They may have any other fields besides. -/
inductive WrittenAs : Expression → Value → Prop
  | boolean {literal : Tree.Literal} {fields : Fields Value} {b : Bool}
      (h : literal.value = .boolean b) : WrittenAs (.boolean b) (.node (.literal literal) fields)
  | number {literal : Tree.Literal} {fields : Fields Value} {x : Binary64}
      (h : literal.value = .number x) : WrittenAs (.number x) (.node (.literal literal) fields)
  | text {literal : Tree.Literal} {fields : Fields Value} {s : String}
      (h : literal.value = .string s) : WrittenAs (.text s) (.node (.literal literal) fields)
  | undefined {fields : Fields Value}
      (h : Fields.get? "name" fields = some (.string "undefined")) :
      WrittenAs .undefined (.node (.element "Identifier") fields)
  | template {fields : Fields Value} {pieces : List Value} {s : String}
      (hpieces : Fields.get? "quasis" fields = some (.array pieces))
      (hnone : ∀ items, Fields.get? "expressions" fields = some (.array items) → items = [])
      (htext : PiecesText pieces s) :
      WrittenAs (.template s) (.node (.element "TemplateLiteral") fields)
  | unary {fields : Fields Value} {op : Operator} {operand : Expression} {tree : Value}
      (hsign : Fields.get? "operator" fields = some (.string op.sign))
      (hoperand : Fields.get? "argument" fields = some tree) (h : operand.WrittenAs tree) :
      WrittenAs (.unary op operand) (.node (.element "UnaryExpression") fields)

/-! ## What the evaluator makes of a tree -/

/-- The value that the evaluator has for the trees of an expression. -/
def reading : Expression → Option AttributeValue
  | .boolean b => some (.boolean b)
  | .number x => some (.number x)
  | .text s | .template s => some (.ofText s)
  | .undefined => some .undefined
  | .unary op operand => operand.reading.bind (unaryValue op.sign)

theorem operandValue_eq (fields : List (String × Value)) :
    operandValue fields = (Fields.get? "argument" fields).bind expressionValue := by
  induction fields with
  | nil => rfl
  | cons field rest ih =>
      rw [operandValue, Fields.get?]
      split
      · rfl
      · exact ih

theorem PiecesText.interleave? {pieces : List Value} {s : String} (h : PiecesText pieces s) :
    Aria.interleave? pieces [] = some s := by
  induction h with
  | nil => rfl
  | cons hvalue hcooked _ ih =>
      simp [Aria.interleave?, pieceText?, Value.node?, Tree.Node.get?, hvalue, Value.object?,
        stringField?, hcooked, Value.string?, ih]

theorem WrittenAs.expressionValue {e : Expression} {tree : Value} (h : e.WrittenAs tree) :
    Aria.expressionValue tree = e.reading := by
  induction h with
  | boolean h => simp [Aria.expressionValue, literalValue, h, reading]
  | number h => simp [Aria.expressionValue, literalValue, h, reading]
  | text h => simp [Aria.expressionValue, literalValue, h, reading]
  | undefined h => simp [Aria.expressionValue, stringField?, h, Value.string?, reading]
  | @template fields pieces s hpieces hnone htext =>
      have hempty : (listField? "expressions" fields).getD [] = [] := by
        rw [listField?]
        cases hitems : Fields.get? "expressions" fields with
        | none => rfl
        | some value =>
            cases value with
            | array items => exact hnone items hitems
            | _ => rfl
      have htemplate : templateText? fields = some s := by
        rw [templateText?, hempty]
        simp [listField?, hpieces, Value.array?, htext.interleave?]
      simp [Aria.expressionValue, htemplate, reading]
  | unary hsign hoperand _ ih =>
      simp [Aria.expressionValue, stringField?, hsign, Value.string?, operandValue_eq, hoperand,
        ih, reading]

theorem WrittenAs.exists_part {e : Expression} {tree : Value} (h : e.WrittenAs tree) :
    ∀ part ∈ e.parts, ∃ tree, part.WrittenAs tree := by
  induction e generalizing tree with
  | unary op operand ih =>
      intro part hpart
      rcases List.mem_cons.mp hpart with rfl | hpart
      · exact ⟨tree, h⟩
      · cases h with
        | unary _ _ h => exact ih h part hpart
  | _ =>
      intro part hpart
      obtain rfl := List.mem_singleton.mp hpart
      exact ⟨tree, h⟩

end Expression

/-! ## One operator -/

section Operator

variable {numberOf : String → Binary64} {op : Operator} {value result : AttributeValue}
  {x : Binary64}

/-- An operator but the negation has a value for numbers only, the complement for finite ones. -/
theorem unaryValue_eq_some (h : unaryValue op.sign value = some result) :
    op = .not ∧ result = .boolean (!isTruthy value) ∨
      ∃ x, value = .number x ∧ (op = .minus ∧ result = .number x.neg ∨
        op = .plus ∧ result = .number x ∨
        op = .complement ∧ x.isFinite = true ∧ result = .number (complement x)) := by
  cases op with
  | not => exact .inl ⟨rfl, (Option.some.inj h).symm⟩
  | minus =>
      cases value with
      | number x => exact .inr ⟨x, rfl, .inl ⟨rfl, (Option.some.inj h).symm⟩⟩
      | _ => exact nomatch h
  | plus =>
      cases value with
      | number x => exact .inr ⟨x, rfl, .inr (.inl ⟨rfl, (Option.some.inj h).symm⟩)⟩
      | _ => exact nomatch h
  | complement =>
      cases value with
      | number x =>
          obtain ⟨hfinite, hresult⟩ := Option.ite_none_right_eq_some.mp h
          exact .inr ⟨x, rfl, .inr (.inr ⟨rfl, hfinite, (Option.some.inj hresult).symm⟩)⟩
      | _ => exact nomatch h

theorem asAttribute_eq_number (h : value.asAttribute = .number x) : value = .number x := by
  cases value with
  | text s =>
      rw [AttributeValue.asAttribute, AttributeValue.ofText.eq_def] at h
      split at h <;> exact nomatch h
  | _ => exact h

/-- Truth is that of scripts, unless the value was a text that says false. -/
theorem isTruthy_asAttribute_iff :
    (isTruthy value.asAttribute = false ↔ Falsy value) ↔ value ≠ .text "false" := by
  cases value with
  | undefined => simp [AttributeValue.asAttribute, isTruthy, Falsy]
  | boolean b => simp [AttributeValue.asAttribute, isTruthy, Falsy]
  | text s =>
      rw [AttributeValue.asAttribute, AttributeValue.ofText.eq_def]
      split <;> simp_all [isTruthy, Falsy]
  | number x =>
      simp only [AttributeValue.asAttribute, isTruthy, Falsy, Bool.and_eq_false_iff,
        Bool.not_eq_false', ne_eq, reduceCtorEq, not_false_eq_true]

theorem fits_not_iff : Operator.not.Fits value ↔ value ≠ .text "false" := by
  cases value <;> simp [Operator.Fits]

/-- An operator gets its value right exactly where it fits its operand. -/
theorem unaryValue_right_iff (h : unaryValue op.sign value.asAttribute = some result) :
    result = (op.apply numberOf value).asAttribute ↔ op.Fits value := by
  obtain ⟨rfl, rfl⟩ | ⟨x, hx, ⟨rfl, rfl⟩ | ⟨rfl, rfl⟩ | ⟨rfl, hfinite, rfl⟩⟩ :=
    unaryValue_eq_some h
  · have hvalue : (Operator.not.apply numberOf value).asAttribute =
        .boolean (decide (Falsy value)) := rfl
    rw [fits_not_iff, ← isTruthy_asAttribute_iff, hvalue, AttributeValue.boolean.injEq,
      Bool.eq_iff_iff, Bool.not_eq_true', decide_eq_true_iff]
  · obtain rfl := asAttribute_eq_number hx
    exact iff_of_true rfl trivial
  · obtain rfl := asAttribute_eq_number hx
    exact iff_of_true rfl trivial
  · obtain rfl := asAttribute_eq_number hx
    rw [Operator.Fits, ← complement_eq_bitwiseNot_iff hfinite]
    exact ⟨AttributeValue.number.inj, congrArg AttributeValue.number⟩

end Operator

/-! ## Values of one kind -/

/-- Values that a rule cannot tell apart. -/
def Alike : AttributeValue → AttributeValue → Prop
  | .undefined, .undefined => True
  | .boolean _, .boolean _ => True
  | .text s, .text t => s = t
  | .number x, .number y => x.isNaN = y.isNaN
  | _, _ => False

section Alike

variable {numberOf : String → Binary64} {op : Operator}
  {first second value result : AttributeValue} {x : Binary64}

theorem Alike.refl (value : AttributeValue) : Alike value value := by
  cases value <;> simp [Alike]

theorem Alike.accepts (h : Alike first second) (rule : Rule) :
    rule.accepts first = rule.accepts second := by
  cases first <;> cases second <;> simp_all [Alike, Rule.accepts]

theorem isNaN_neg (x : Binary64) : x.neg.isNaN = x.isNaN := by
  have hlt : x.magnitudeBits < Binary64.signUnit := Nat.mod_lt _ (by decide)
  have hbits : x.neg.magnitudeBits = x.magnitudeBits :=
    Binary64.magnitudeBits_ofMagnitudeBits hlt
  rw [Binary64.isNaN, Binary64.exponentField, Binary64.fractionField, hbits]
  rfl

theorem isNaN_of_isFinite (h : x.isFinite = true) : x.isNaN = false := by
  simp only [Binary64.isFinite, decide_eq_true_eq] at h
  simp [Binary64.isNaN, Nat.ne_of_lt h]

/-- Operators keep values of one kind together. -/
theorem Alike.unaryValue (h : Alike first value.asAttribute)
    (hfirst : Aria.unaryValue op.sign first = some result) :
    Alike result (op.apply numberOf value).asAttribute := by
  obtain ⟨rfl, rfl⟩ | ⟨x, rfl, hresult⟩ := unaryValue_eq_some hfirst
  · trivial
  · obtain ⟨y, hy, hnan⟩ : ∃ y, value = .number y ∧ x.isNaN = y.isNaN := by
      cases hvalue : value.asAttribute with
      | number y => exact ⟨y, asAttribute_eq_number hvalue, by rwa [hvalue] at h⟩
      | _ => rw [hvalue] at h; exact h.elim
    subst hy
    obtain ⟨rfl, rfl⟩ | ⟨rfl, rfl⟩ | ⟨rfl, hfinite, rfl⟩ := hresult
    · exact (isNaN_neg x).trans (hnan.trans (isNaN_neg y).symm)
    · exact hnan
    · have hbounds := toInt32_bounds x.truncate
      have hcomplement : (complement x).isFinite = true :=
        (Binary64.units_ofInt_of_lt (by omega)).1
      exact (isNaN_of_isFinite hcomplement).trans
        (isNaN_of_isFinite y.units_bitwiseNot.1).symm

end Alike

/-! ## Whole expressions -/

namespace Expression

variable {numberOf : String → Binary64} {e : Expression} {result : AttributeValue}

theorem alike_of_reading (h : e.reading = some result) :
    Alike result (e.value numberOf).asAttribute := by
  induction e generalizing result with
  | unary op operand ih =>
      obtain ⟨first, hfirst, hresult⟩ := Option.bind_eq_some_iff.mp h
      exact (ih hfirst).unaryValue hresult
  | _ =>
      obtain rfl := Option.some.inj h
      exact .refl _

theorem self_mem_parts (e : Expression) : e ∈ e.parts := by
  cases e <;> exact List.mem_cons_self

/-- All parts are read right if each operator fits its operand, and only then. -/
theorem parts_right_iff (h : e.reading = some result) :
    (∀ part ∈ e.parts, part.reading = some (part.value numberOf).asAttribute) ↔
      ∀ op operand, .unary op operand ∈ e.parts → op.Fits (operand.value numberOf) := by
  induction e generalizing result with
  | unary op operand ih =>
      obtain ⟨first, hfirst, hresult⟩ := Option.bind_eq_some_iff.mp h
      -- Whether the whole is read right is only asked where the operand is.
      have hstep (hright : operand.reading = some (operand.value numberOf).asAttribute) :
          (unary op operand).reading = some ((unary op operand).value numberOf).asAttribute ↔
            op.Fits (operand.value numberOf) := by
        obtain rfl := Option.some.inj (hfirst.symm.trans hright)
        rw [h, Option.some.injEq]
        exact unaryValue_right_iff hresult
      have hmem (op' : Operator) (operand' : Expression) :
          .unary op' operand' ∈ (unary op operand).parts ↔
            (op' = op ∧ operand' = operand) ∨ .unary op' operand' ∈ operand.parts := by
        rw [parts, List.mem_cons, unary.injEq]
      constructor
      · intro hright op' operand' hpart
        rw [parts, List.forall_mem_cons] at hright
        rcases (hmem op' operand').mp hpart with ⟨rfl, rfl⟩ | hpart
        · exact (hstep (hright.2 _ (self_mem_parts _))).mp hright.1
        · exact (ih hfirst).mp hright.2 op' operand' hpart
      · intro hfits
        have hright := (ih hfirst).mpr fun op' operand' hpart =>
          hfits op' operand' ((hmem op' operand').mpr (.inr hpart))
        rw [parts, List.forall_mem_cons]
        exact ⟨(hstep (hright _ (self_mem_parts _))).mpr
          (hfits op operand (self_mem_parts (.unary op operand))), hright⟩
  | _ => simp [parts, reading, value, AttributeValue.asAttribute]

/-- If the evaluator has a value for a tree, it is the one that scripts have for the
expression, provided that all operators in it fit their operands. This is the exact condition
for all of its parts to be read right. And in any case the value is of the right kind, so that
no rule judges another value than that of scripts. -/
theorem constant_read_right_iff (numberOf : String → Binary64) {e : Expression} {tree : Value}
    {result : AttributeValue} (htree : e.WrittenAs tree)
    (h : Aria.expressionValue tree = some result) :
    ((∀ op operand, .unary op operand ∈ e.parts → op.Fits (operand.value numberOf)) →
      result = (e.value numberOf).asAttribute) ∧
    ((∀ part ∈ e.parts, ∀ tree, part.WrittenAs tree →
        Aria.expressionValue tree = some (part.value numberOf).asAttribute) ↔
      ∀ op operand, .unary op operand ∈ e.parts → op.Fits (operand.value numberOf)) ∧
    (result = .undefined ↔ (e.value numberOf).asAttribute = .undefined) ∧
    ∀ rule : Rule, rule.accepts result = rule.accepts (e.value numberOf).asAttribute := by
  rw [htree.expressionValue] at h
  have halike : Alike result (e.value numberOf).asAttribute := alike_of_reading h
  refine ⟨fun hfits => ?_, ?_, ?_, halike.accepts⟩
  · have hright := (parts_right_iff h).mpr hfits e e.self_mem_parts
    exact Option.some.inj (h.symm.trans hright)
  · rw [← parts_right_iff h]
    constructor
    · intro hright part hpart
      obtain ⟨tree, htree⟩ := htree.exists_part part hpart
      rw [← htree.expressionValue, hright part hpart tree htree]
    · intro hright part hpart tree htree
      rw [htree.expressionValue, hright part hpart]
  · generalize (e.value numberOf).asAttribute = value at halike
    cases result <;> cases value <;> simp_all [Alike]

/-- The tree of an operator before an operand. -/
def unaryTree (op : Operator) (operand : Value) : Value :=
  .node (.element "UnaryExpression") [("operator", .string op.sign), ("argument", operand)]

def literalTree (value : Tree.LiteralValue) : Value :=
  .node (.literal ⟨value, none, none, none⟩) []

/-- Of `2 ^ 32 + 5.5` a word keeps the five, whose complement is minus six. -/
theorem constant_read_right_beyond_word :
    Aria.expressionValue (unaryTree .minus (unaryTree .complement
      (literalTree (.number ⟨0x41F0000000580000⟩)))) = some (.number (ofInt 6)) ∧
    AttributeValue.number (ofInt 6) = ((unary .minus (unary .complement
      (.number ⟨0x41F0000000580000⟩))).value fun _ => .nan).asAttribute := by
  have hvalue : Aria.expressionValue (unaryTree .minus (unaryTree .complement
      (literalTree (.number ⟨0x41F0000000580000⟩)))) = some (.number (ofInt 6)) := by
    decide +kernel
  have htree : (unary .minus (unary .complement (.number ⟨0x41F0000000580000⟩))).WrittenAs
      (unaryTree .minus (unaryTree .complement
        (literalTree (.number ⟨0x41F0000000580000⟩)))) :=
    .unary rfl rfl (.unary rfl rfl (.number rfl))
  refine ⟨hvalue, (constant_read_right_iff _ htree hvalue).1 fun op operand hpart => ?_⟩
  simp only [parts, List.mem_cons, unary.injEq, reduceCtorEq, List.not_mem_nil, or_false] at hpart
  obtain ⟨rfl, rfl⟩ | ⟨rfl, rfl⟩ := hpart
  · trivial
  · have hbounds : (⟨0x41F0000000580000⟩ : Binary64).whole < 2 ^ 63 ∧
        -2 ^ 63 ≤ (⟨0x41F0000000580000⟩ : Binary64).whole := by
      decide +kernel
    exact ⟨hbounds.1, .inl hbounds.2⟩

/-- Scripts have minus one for the complement of two to the sixty-third, and the negation of a
text that says false is false. -/
theorem constant_misread :
    (∃ tree, (unary .complement (.number ⟨0x43E0000000000000⟩)).WrittenAs tree ∧
      Aria.expressionValue tree = some (.number (ofInt 0)) ∧
      ((unary .complement (.number ⟨0x43E0000000000000⟩)).value fun _ => .nan).asAttribute =
        .number (ofInt (-1)) ∧ ofInt 0 ≠ ofInt (-1)) ∧
    ∃ tree, (unary .not (.text "false")).WrittenAs tree ∧
      Aria.expressionValue tree = some (.boolean true) ∧
      ((unary .not (.text "false")).value fun _ => .nan).asAttribute = .boolean false := by
  refine ⟨⟨unaryTree .complement (literalTree (.number ⟨0x43E0000000000000⟩)),
    .unary rfl rfl (.number rfl), by decide +kernel, by decide +kernel, by decide +kernel⟩,
    unaryTree .not (literalTree (.string "false")), .unary rfl rfl (.text rfl),
    by decide +kernel, by decide +kernel⟩

end Expression

end ParseView.Aria
