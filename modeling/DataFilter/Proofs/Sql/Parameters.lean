import DataFilter.Proofs.Node.Scoped
import DataFilter.Proofs.Sql.Text
import DataFilter.Proofs.Template.Spelling

/-!
# Numbered parameters

The text of a condition refers to values by number, the values are handed over in a list, and the
two have to meet. While a tree is compiled, the next number is always one more than the count of
values written so far. So the numbers of a condition run on from those written before it, and the
values are those of the tree. That the text shows the numbers of the condition, and no others, is a
matter of where a number ends: no digit follows it.
-/

namespace DataFilter.Sql

/-! ## The values and numbers of a condition -/

/-- The numbers of the parameters, from left to right. -/
def Condition.numbers : Condition → List Nat
  | parameter number => [number]
  | column _ => []
  | prefixed _ operand _ => operand.numbers
  | infixed left _ right _ => left.numbers ++ right.numbers
  | postfixed operand _ _ => operand.numbers
  | .exists _ _ condition => condition.numbers

section Compiles

variable {around : Surroundings} {tree : Node} {out after : Output} {condition : Condition}

/-- Compiling writes the values of the tree behind those that are there. -/
theorem Compiles.slots (h : Compiles around tree out condition after) :
    after.parameters.map Operand.literal =
      out.parameters.map Operand.literal ++ tree.slots := by
  induction h with
  | literal v out => simp [Node.slots]
  | field => simp [Node.slots]
  | collection _ _ ih => exact ih
  | prefixed _ ih => exact ih
  | infixed _ _ ihl ihr =>
      rw [ihr, ihl, List.append_assoc]
      rfl
  | postfixed _ ih => exact ih

theorem Compiles.length_parameters (h : Compiles around tree out condition after) :
    after.parameters.length = out.parameters.length + tree.slots.length := by
  simpa using congrArg List.length h.slots

/-- The numbers run on from the values that are there. -/
theorem Compiles.numbers_eq (h : Compiles around tree out condition after) :
    condition.numbers = List.range' (out.parameters.length + 1) tree.slots.length := by
  induction h with
  | literal v out => rfl
  | field => rfl
  | collection _ _ ih => exact ih
  | prefixed _ ih => exact ih
  | @infixed around left right op grouping out middle after l r first second ihl ihr =>
      have start : middle.parameters.length + 1 =
          (out.parameters.length + 1) + left.slots.length := by
        rw [first.length_parameters]
        omega
      rw [Condition.numbers, ihl, ihr, start, List.range'_append_1, Node.slots,
        List.length_append]
  | postfixed _ ih => exact ih

end Compiles

/-! ## Parameters in a text -/

/-- The parameters in a text: each dollar sign with the digits behind it. -/
def scan : List Char → List (List Char)
  | [] => []
  | '$' :: rest => ('$' :: rest.takeWhile Char.isDigit) :: scan rest
  | _ :: rest => scan rest

/-- The parameters that stand in a text, from left to right. -/
def placeholders (text : String) : List String := (scan text.toList).map String.ofList

example : placeholders "$12 < a OR b > $3" = ["$12", "$3"] := by decide +kernel

/-- How a parameter is written. -/
def parameterText (number : Nat) : String := "$" ++ toString number

theorem toList_parameterText (number : Nat) :
    (parameterText number).toList = '$' :: Nat.toDigits 10 number := by
  rw [parameterText, String.toList_append, toList_toString]
  rfl

theorem scan_cons {c : Char} (h : c ≠ '$') (rest : List Char) : scan (c :: rest) = scan rest := by
  rw [scan]
  exact h

/-- A text without a dollar sign has no parameters. -/
theorem scan_append {text : List Char} (h : '$' ∉ text) (rest : List Char) :
    scan (text ++ rest) = scan rest := by
  induction text with
  | nil => rfl
  | cons c text ih =>
      rw [List.mem_cons, not_or] at h
      rw [List.cons_append, scan_cons (Ne.symm h.1), ih h.2]

/-- These are the parameters of the text, whatever follows it, as long as that is no digit. -/
def Shows (text : List Char) (numbers : List Nat) : Prop :=
  ∀ rest, (∀ c ∈ rest.head?, c.isDigit = false) →
    scan (text ++ rest) = numbers.map (fun n => (parameterText n).toList) ++ scan rest

namespace Shows

variable {front back : List Char} {ms ns : List Nat}

theorem quiet (h : '$' ∉ front) : Shows front [] := fun rest _ => scan_append h rest

theorem parameter (number : Nat) : Shows (parameterText number).toList [number] := by
  intro rest hrest
  have digits : ∀ c ∈ Nat.toDigits 10 number, c.isDigit = true := (isDigits_toDigits number).2
  have plain : '$' ∉ Nat.toDigits 10 number := by
    intro dollar
    have digit := digits '$' dollar
    cases digit
  rw [List.map_singleton, toList_parameterText, List.cons_append, scan,
    takeWhile_append_of_head digits hrest, scan_append plain]
  rfl

/-- Text without parameters may stand in front. -/
theorem behind (h : '$' ∉ front) (h' : Shows back ns) : Shows (front ++ back) ns := by
  intro rest hrest
  rw [List.append_assoc, scan_append h, h' rest hrest]

/-- Text that begins with no digit may follow. -/
theorem append {c : Char} (h : Shows front ms) (border : c.isDigit = false)
    (h' : Shows (c :: back) ns) : Shows (front ++ c :: back) (ms ++ ns) := by
  intro rest hrest
  have stop : ∀ d ∈ (c :: back ++ rest).head?, d.isDigit = false := by
    intro d hd
    cases hd
    exact border
  rw [List.append_assoc, h _ stop, h' rest hrest, List.map_append, List.append_assoc]

/-- Text that begins with no digit and has no parameters may follow. -/
theorem before {c : Char} (h : Shows front ns) (border : c.isDigit = false)
    (silent : '$' ∉ c :: back) : Shows (front ++ c :: back) ns := by
  have both := h.append border (quiet silent)
  rwa [List.append_nil] at both

theorem wrap {text : String} (h : Shows text.toList ns) (needed : Bool) :
    Shows (wrap needed text).toList ns := by
  cases needed with
  | false => exact h
  | true =>
      show Shows ("(" ++ text ++ ")").toList ns
      rw [String.toList_append, String.toList_append, List.append_assoc]
      exact (h.before rfl (by decide)).behind (by decide)

end Shows

/-! ## The text of a condition shows its numbers -/

theorem quiet_of_isRangeChar {text : List Char} (h : text.all isRangeChar = true) : '$' ∉ text := by
  intro dollar
  have allowed := List.all_eq_true.mp h '$' dollar
  cases allowed

/-- The parameters in the text of a condition are its numbers, in their order. -/
theorem Condition.IsNamed.shows {c : Condition} (named : c.IsNamed) (place : Place) :
    Shows (c.renderIn place).toList c.numbers := by
  induction c generalizing place with
  | parameter number => exact .parameter number
  | column names => exact .quiet (quiet_of_isRangeChar (all_isRangeChar_dotted named.2))
  | prefixed op operand grouping ih =>
      apply Shows.wrap
      rw [String.toList_append]
      have quiet : '$' ∉ (prefixText op).toList := by cases op <;> decide
      exact (ih named _).behind quiet
  | infixed left op right grouping ihl ihr =>
      obtain ⟨first, second⟩ := named
      apply Shows.wrap
      -- the blank in front of the operator ends the number that may stand there
      have quiet : '$' ∉ ' ' :: op.sql.toList ++ [' '] := by cases op <;> decide
      have text := (ihl first (.leftOf op grouping)).append rfl
        ((ihr second (.rightOf op grouping)).behind quiet)
      simpa [Condition.numbers] using text
  | postfixed operand op grouping ih =>
      apply Shows.wrap
      have quiet : '$' ∉ ' ' :: op.sql.toList := by cases op <;> decide
      have text := (ih named (.leftOf op grouping)).before rfl quiet
      simpa [Condition.numbers] using text
  | «exists» source rowName condition ih =>
      obtain ⟨range, row, inner⟩ := named
      have quiet : '$' ∉ "EXISTS (SELECT 1 FROM ".toList := by decide
      have closing : '$' ∉ [')'] := by decide
      have tested := (ih inner source.place).before rfl closing
      show Shows ("EXISTS (SELECT 1 FROM " ++ source.render rowName ++
        condition.renderIn source.place ++ ")").toList condition.numbers
      rw [String.toList_append, String.toList_append, String.toList_append, List.append_assoc,
        List.append_assoc]
      exact (tested.behind (quiet_of_isRangeChar (range.all_isRangeChar row))).behind quiet

/-! ## Parameters and values meet -/

/-- The text of a compiled tree refers to `$1`, `$2` and so on up to the number of its values, each
once and in this order, and the values are those of the tree, from left to right. -/
theorem placeholders_ofNode {around : Surroundings} (outermost : around.IsOutermost) {tree : Node}
    (wellScoped : tree.IsWellScoped) {compiled : Compiled} (h : ofNode around tree = .ok compiled) :
    placeholders compiled.sql =
        (List.range' 1 compiled.parameters.length).map parameterText ∧
      tree.operands = compiled.parameters.map .literal := by
  obtain ⟨condition, out, compiles, rfl⟩ := compiles_of_ofNode h
  have values : out.parameters.map Operand.literal = tree.slots := compiles.slots
  have count : tree.slots.length = out.parameters.length := by
    rw [← values, List.length_map]
  have numbers : condition.numbers = List.range' 1 out.parameters.length := by
    rw [compiles.numbers_eq, count]
    rfl
  have shown := (compiles.isNamed outermost.isNamed).shows .top [] nofun
  rw [List.append_nil] at shown
  -- no value hides in a chain, so the slots are all there is
  refine ⟨?_, wellScoped.operands_eq_slots.trans values.symm⟩
  rw [placeholders, Condition.render, shown, numbers, scan, List.append_nil, List.map_map]
  exact List.map_congr_left fun n _ => String.ofList_toList

/-- A related collection with an embedded one in its test, and values before, inside and behind. -/
def valuesTree : Node :=
  .between
    (.between (.between (.literal (.text "$9")) .equal (.field .globalScope "note")) .and
      (.collection (.object .globalScope "Lines")
        (.between (.between (.field .item "qty") .greaterThan (.literal (.boolean true))) .or
          (.collection (.object .item "tags") (.between (.field .item "name") .equal
            (.literal (.text "x")))))))
    .or (.literal .null)

theorem placeholders_valuesTree : ∃ compiled,
    ofNode (.ofTable orderSchema "orders") valuesTree = .ok compiled ∧
      compiled.sql = "$1 = note AND EXISTS (SELECT 1 FROM order_lines AS ol_1 " ++
        "WHERE ol_1.order_id = orders.id AND ol_1.region = orders.region AND (ol_1.qty > $2 OR " ++
        "EXISTS (SELECT 1 FROM unnest(ol_1.tags) AS tag_2 WHERE tag_2.name = $3))) OR $4" ∧
      placeholders compiled.sql =
        (List.range' 1 compiled.parameters.length).map parameterText ∧
      valuesTree.operands = compiled.parameters.map .literal := by
  have wellScoped : valuesTree.IsWellScoped := by simp [valuesTree, Node.between, Node.literal,
    Node.IsWellScoped, Node.IsChain]
  refine ⟨_, rfl, by decide +kernel, ?_⟩
  exact placeholders_ofNode (.ofTable orderSchema "orders") wellScoped rfl

end DataFilter.Sql
