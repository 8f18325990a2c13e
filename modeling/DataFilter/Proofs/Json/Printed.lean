import DataFilter.Proofs.Json.Strings
import DataFilter.Proofs.Number.Digits
import Mathlib.Data.List.Forall2

/-!
# Printed documents are JSON text

What is printed is found again by the grammar: each reader takes off just the text of its part,
whatever follows (`Grammar.Takes`). Blanks may stand around every sign, so the layout does not
matter. Numbers are left out: a document without them is found as it is written (`toWritten`).
-/

namespace DataFilter.Json

/-! ## Documents as they are written -/

mutual

/-- A document as it is written, its numbers by the given numerals. -/
def toWritten (numeral : JsonNumber → Numeral) : Json → Written
  | null => .null
  | bool b => .bool b
  | number n => .numeral (numeral n)
  | string s => .string (content s.toList)
  | array items => .array (itemsToWritten numeral items)
  | object members => .object (membersToWritten numeral members)

/-- The items of an array as they are written. -/
def itemsToWritten (numeral : JsonNumber → Numeral) : List Json → List Written
  | [] => []
  | item :: rest => item.toWritten numeral :: itemsToWritten numeral rest

/-- The members of an object as they are written. -/
def membersToWritten (numeral : JsonNumber → Numeral) :
    List (String × Json) → List (List Char × Written)
  | [] => []
  | (name, v) :: rest =>
    (content name.toList, v.toWritten numeral) :: membersToWritten numeral rest

end

theorem itemsToWritten_eq (numeral : JsonNumber → Numeral) (items : List Json) :
    itemsToWritten numeral items = items.map (toWritten numeral) := by
  induction items with
  | nil => rfl
  | cons item rest ih => rw [itemsToWritten, ih, List.map_cons]

theorem membersToWritten_eq (numeral : JsonNumber → Numeral) (members : List (String × Json)) :
    membersToWritten numeral members =
      members.map fun member => (content member.1.toList, member.2.toWritten numeral) := by
  induction members with
  | nil => rfl
  | cons member rest ih => rw [membersToWritten, ih, List.map_cons]

/-- The document has no numbers and at most so many levels of nesting. -/
inductive IsPlain : Nat → Json → Prop where
  | null (levels : Nat) : IsPlain levels .null
  | bool (levels : Nat) (b : Bool) : IsPlain levels (.bool b)
  | string (levels : Nat) (s : String) : IsPlain levels (.string s)
  | array {levels : Nat} {items : List Json} (each : ∀ item ∈ items, IsPlain levels item) :
      IsPlain (levels + 1) (.array items)
  | object {levels : Nat} {members : List (String × Json)}
      (each : ∀ member ∈ members, IsPlain levels member.2) : IsPlain (levels + 1) (.object members)

/-- Around signs there are only blanks. -/
structure Layout.IsBlank (layout : Layout) : Prop where
  colon : ∃ front back : List Char, layout.colon.toList = front ++ ':' :: back ∧
    front.all Grammar.isBlank = true ∧ back.all Grammar.isBlank = true
  newLine : ∀ depth, (layout.newLine depth).toList.all Grammar.isBlank = true

theorem Layout.isBlank_pretty : pretty.IsBlank := by
  refine ⟨⟨[], [' '], by decide, rfl, rfl⟩, fun depth => ?_⟩
  have line : (pretty.newLine depth).toList = '\n' :: List.replicate (2 * depth) ' ' := by
    rw [pretty, String.toList_append, toList_pushn]
    rfl
  rw [line, List.all_cons, List.all_replicate]
  simp [Grammar.isBlank]

/-! ## Readers take off their parts -/

namespace Grammar

section Takes

variable {α β : Type} {reader : Reader α} {text : List Char} {found : α}

/-- The reader finds this and takes off the text, whatever follows. -/
def Takes (reader : Reader α) (text : List Char) (found : α) : Prop :=
  ∀ rest, reader (text ++ rest) = some (found, rest)

theorem takes_pure (a : α) : Takes (pure a) [] a := fun _ => rfl

theorem takes_expect (c : Char) : Takes (expect c) [c] () := fun _ => if_pos rfl

theorem takes_word (letters : List Char) (meaning : Written) :
    Takes (word letters meaning) letters meaning := by
  intro rest
  have front : letters.isPrefixOf (letters ++ rest) = true := by simp
  rw [word, if_pos front, List.drop_left]

/-- One reader behind another takes off one text behind the other. -/
theorem Takes.bind (h : Takes reader text found) {next : α → Reader β} {text' : List Char}
    {found' : β} (behind : Takes (next found) text' found') :
    Takes (reader >>= next) (text ++ text') found' := by
  intro rest
  have run : (reader >>= next) (text ++ text' ++ rest) =
      (reader (text ++ (text' ++ rest))).bind fun (a, left) => next a left := by
    rw [List.append_assoc]
    rfl
  rw [run, h]
  exact behind rest

theorem Takes.map (h : Takes reader text found) (f : α → β) :
    Takes (do return f (← reader)) text (f found) := by
  have same : Takes (do return f (← reader)) (text ++ []) (f found) := h.bind (takes_pure (f found))
  rwa [List.append_nil] at same

/-- Blanks are skipped up to a sign. -/
theorem takes_skipBlanks {next : Unit → Reader β} {gap : List Char} {c : Char} {found : β}
    (blanks : gap.all isBlank = true) (solid : isBlank c = false)
    (behind : Takes (next ()) (c :: text) found) :
    Takes (skipBlanks >>= next) (gap ++ c :: text) found := by
  intro rest
  have skipped : (gap ++ c :: text ++ rest).dropWhile isBlank = c :: text ++ rest := by
    rw [List.append_assoc, List.dropWhile_append_of_pos (List.all_eq_true.mp blanks)]
    exact List.dropWhile_cons_of_neg (by simp [solid])
  have run : (skipBlanks >>= next) (gap ++ c :: text ++ rest) =
      next () ((gap ++ c :: text ++ rest).dropWhile isBlank) := rfl
  rw [run, skipped]
  exact behind rest

/-- A first character is seen and stays. -/
theorem takes_peek {next : Option Char → Reader β} {c : Char} {found : β}
    (behind : Takes (next (some c)) (c :: text) found) : Takes (peek >>= next) (c :: text) found :=
  behind

theorem takes_string (s : List Char) : Takes string ('"' :: (content s ++ ['"'])) (content s) := by
  have inside : Takes stringContent (content s ++ ['"']) (content s) := by
    intro rest
    rw [List.append_assoc]
    exact stringContent_content rest s
  exact (takes_expect '"').bind inside

end Takes

/-! ## Items -/

section Items

variable {α : Type} {item : Reader α} {close : Char} {gap ending : List Char}

/-- An item that begins with a sign of its own is found behind any blanks. -/
structure TakesItem (item : Reader α) (close : Char) (text : List Char) (found : α) : Prop where
  first : ∃ c more, text = c :: more ∧ isBlank c = false ∧ c ≠ close
  behind : ∀ gap, gap.all isBlank = true → Takes item (gap ++ text) found

/-- What is taken where its first character is seen is an item where blanks are skipped before. -/
theorem takesItem_of_takes {next : Option Char → Reader α} {c : Char} {text : List Char} {found : α}
    (solid : isBlank c = false) (other : c ≠ close)
    (h : Takes (next (some c)) (c :: text) found) :
    TakesItem (skipBlanks >>= fun _ => peek >>= next) close (c :: text) found :=
  ⟨⟨c, text, rfl, solid, other⟩, fun _ blanks => takes_skipBlanks blanks solid (takes_peek h)⟩

/-- Items behind the first one, each behind a comma and a gap. -/
def moreText (gap : List Char) (texts : List (List Char)) : List Char :=
  texts.flatMap fun text => ',' :: (gap ++ text)

theorem takes_moreItems {texts : List (List Char)} {items : List α}
    (each : List.Forall₂ (TakesItem item close) texts items) (blanks : gap.all isBlank = true)
    (blanks' : ending.all isBlank = true) (solid : isBlank close = false) (comma : close ≠ ',')
    {count : Nat} (enough : items.length < count) :
    Takes (moreItems item close count) (moreText gap texts ++ (ending ++ [close])) items := by
  induction each generalizing count with
  | nil =>
      obtain ⟨count, rfl⟩ := Nat.exists_eq_succ_of_ne_zero (Nat.ne_zero_of_lt enough)
      refine takes_skipBlanks blanks' solid (takes_peek ?_)
      split
      · rename_i same
        exact absurd (Option.some.inj same) comma
      · exact (takes_expect close).map fun _ => []
  | @cons text found texts items first _ ih =>
      obtain ⟨count, rfl⟩ := Nat.exists_eq_succ_of_ne_zero (Nat.ne_zero_of_lt enough)
      have others := ih (Nat.lt_of_succ_lt_succ enough)
      have front := first.behind gap blanks
      have split : moreText gap (text :: texts) ++ (ending ++ [close]) =
          [] ++ ',' :: ((gap ++ text) ++ ((moreText gap texts ++ (ending ++ [close])) ++ [])) := by
        simp [moreText]
      rw [split]
      refine takes_skipBlanks rfl (by decide) (takes_peek ?_)
      exact (takes_expect ',').bind (front.bind (others.bind (takes_pure (found :: items))))

/-- Each item behind a gap, with commas between them and another gap at the end. -/
def itemsText (gap ending : List Char) : List (List Char) → List Char
  | [] => []
  | text :: texts => gap ++ (text ++ (moreText gap texts ++ ending))

theorem length_le_moreText (gap : List Char) (texts : List (List Char)) :
    texts.length ≤ (moreText gap texts).length := by
  induction texts with
  | nil => exact Nat.le_refl _
  | cons text texts ih =>
      simp only [moreText, List.flatMap_cons, List.length_append, List.length_cons] at ih ⊢
      omega

/-- The count that is left is told by the text. -/
theorem takes_get {β : Type} (next : Nat → Reader β) {text : List Char} {found : β}
    (behind : ∀ n, text.length ≤ n → Takes (next n) text found) :
    Takes (do next (← get).length) text found :=
  fun rest => behind (text ++ rest).length (by simp) rest

theorem takes_itemsUpTo {texts : List (List Char)} {items : List α}
    (each : List.Forall₂ (TakesItem item close) texts items) (blanks : gap.all isBlank = true)
    (blanks' : ending.all isBlank = true) (solid : isBlank close = false) (comma : close ≠ ',') :
    Takes (itemsUpTo item close) (itemsText gap ending texts ++ [close]) items := by
  cases each with
  | nil =>
      show Takes (itemsUpTo item close) ([] ++ [close]) []
      refine takes_skipBlanks rfl solid (takes_peek ?_)
      rw [if_pos rfl]
      exact (takes_expect close).map fun _ => []
  | @cons text found texts items first others =>
      obtain ⟨c, more, rfl, solid', other⟩ := first.first
      have split : itemsText gap ending ((c :: more) :: texts) ++ [close] =
          gap ++ c :: (more ++ (moreText gap texts ++ (ending ++ [close]))) := by
        simp [itemsText]
      rw [split]
      refine takes_skipBlanks blanks solid' (takes_peek ?_)
      rw [if_neg fun same => other (Option.some.inj same)]
      refine (first.behind [] rfl).bind
        (takes_get (fun n => return found :: (← moreItems item close n)) ?_)
      intro n enough
      have count := others.length_eq
      have fits := length_le_moreText gap texts
      have count' : items.length < n := by
        simp only [List.length_append, List.length_singleton] at enough
        omega
      exact (takes_moreItems others blanks blanks' solid comma count').map (found :: ·)

end Items

end Grammar

/-! ## Documents -/

section Documents

open Grammar

variable {layout : Layout}

theorem renderItems_eq (layout : Layout) (depth : Nat) (items : List Json) :
    renderItems layout depth items = items.map (renderAt layout depth) := by
  induction items with
  | nil => rfl
  | cons item rest ih => rw [renderItems, ih, List.map_cons]

/-- The text of a member. -/
def memberText (layout : Layout) (depth : Nat) (member : String × Json) : String :=
  stringText member.1 ++ layout.colon ++ renderAt layout depth member.2

theorem renderMembers_eq (layout : Layout) (depth : Nat) (members : List (String × Json)) :
    renderMembers layout depth members = members.map (memberText layout depth) := by
  induction members with
  | nil => rfl
  | cons member rest ih =>
      rw [renderMembers, ih, List.map_cons]
      rfl

theorem intercalate_comma (gap text : List Char) (texts : List (List Char)) :
    (',' :: gap).intercalate (text :: texts) = text ++ moreText gap texts := by
  induction texts generalizing text with
  | nil => simp [moreText]
  | cons next texts ih =>
      rw [List.intercalate_cons_cons, ih]
      simp [moreText]

theorem Layout.toList_enclose (layout : Layout) (depth : Nat) (opening closing : String)
    (items : List String) :
    (layout.enclose depth opening items closing).toList = opening.toList ++
      (itemsText (layout.newLine (depth + 1)).toList (layout.newLine depth).toList
        (items.map String.toList) ++ closing.toList) := by
  cases items with
  | nil => simp [enclose, itemsText]
  | cons text texts =>
      have commas : (",".toList ++ (layout.newLine (depth + 1)).toList).intercalate
          (text.toList :: texts.map String.toList) =
            text.toList ++ moreText (layout.newLine (depth + 1)).toList (texts.map String.toList) :=
        intercalate_comma _ _ _
      simp only [enclose, List.isEmpty_cons, Bool.false_eq_true, if_false, String.toList_append,
        String.toList_intercalate, List.map_cons, itemsText, commas, List.append_assoc]

/-- Texts between two signs, laid out at a depth of nesting. -/
def enclosed (layout : Layout) (depth : Nat) (opening close : Char) (texts : List (List Char)) :
    List Char :=
  opening :: (itemsText (layout.newLine (depth + 1)).toList (layout.newLine depth).toList texts ++
    [close])

theorem toList_renderAt_array (layout : Layout) (depth : Nat) (items : List Json) :
    (renderAt layout depth (.array items)).toList = enclosed layout depth '[' ']'
      (items.map fun item => (renderAt layout (depth + 1) item).toList) := by
  rw [renderAt, renderItems_eq, Layout.toList_enclose, List.map_map]
  rfl

theorem toList_renderAt_object (layout : Layout) (depth : Nat) (members : List (String × Json)) :
    (renderAt layout depth (.object members)).toList = enclosed layout depth '\x7b' '\x7d'
      (members.map fun member => (memberText layout (depth + 1) member).toList) := by
  rw [renderAt, renderMembers_eq, Layout.toList_enclose, List.map_map]
  rfl

/-- Every text is at most as long as all of them together. -/
theorem length_le_itemsText (gap ending : List Char) {text : List Char} {texts : List (List Char)}
    (h : text ∈ texts) : text.length ≤ (itemsText gap ending texts).length := by
  cases texts with
  | nil => cases h
  | cons first texts =>
      rw [itemsText, List.length_append, List.length_append, List.length_append]
      rcases List.mem_cons.mp h with rfl | behind
      · omega
      · have inside : (',' :: (gap ++ text)).length ≤ (moreText gap texts).length :=
          (List.sublist_flatten_of_mem
            (List.mem_map_of_mem (f := fun text => ',' :: (gap ++ text)) behind)).length_le
        rw [List.length_cons, List.length_append] at inside
        omega

/-- What is enclosed is shorter than the whole. -/
theorem length_le_of_enclosed {depth fuel : Nat} {opening close : Char} {texts : List (List Char)}
    (enough : (enclosed layout depth opening close texts).length ≤ fuel + 1) {text : List Char}
    (h : text ∈ texts) : text.length ≤ fuel := by
  have part := length_le_itemsText (layout.newLine (depth + 1)).toList
    (layout.newLine depth).toList h
  rw [enclosed, List.length_cons, List.length_append] at enough
  omega

/-- What is enclosed is taken when each of its parts is. -/
theorem takes_enclosed {α β : Type} {item : Reader α} {opening close : Char} {depth : Nat}
    {texts : List (List Char)} {items : List α} (blank : layout.IsBlank)
    (each : List.Forall₂ (TakesItem item close) texts items) (solid : isBlank close = false)
    (comma : close ≠ ',') (make : List α → β) :
    Takes (do expect opening; return make (← itemsUpTo item close))
      (enclosed layout depth opening close texts) (make items) :=
  (takes_expect opening).bind
    ((takes_itemsUpTo each (blank.newLine _) (blank.newLine _) solid comma).map make)

/-- A member is found if its value is. -/
theorem takesItem_member (blank : layout.IsBlank) {depth : Nat} {name : String} {v : Json}
    {value : Reader Written} {written : Written} {close : Char} (other : '"' ≠ close)
    (h : TakesItem value '\x7d' (renderAt layout depth v).toList written) :
    TakesItem (member value) close (memberText layout depth (name, v)).toList
      (content name.toList, written) := by
  obtain ⟨front, back, colon, blanks, blanks'⟩ := blank.colon
  have text : (memberText layout depth (name, v)).toList =
      '"' :: (content name.toList ++ ['"']) ++
        (front ++ ':' :: ((back ++ (renderAt layout depth v).toList) ++ [])) := by
    simp [memberText, toList_stringText, colon]
  rw [text]
  refine ⟨⟨_, _, rfl, by decide, other⟩, fun gap gapBlanks => ?_⟩
  refine takes_skipBlanks gapBlanks (by decide) ((takes_string name.toList).bind ?_)
  refine takes_skipBlanks blanks (by decide) ((takes_expect ':').bind ?_)
  exact (h.behind back blanks').bind (takes_pure _)

/-- A document without numbers is found as it is written, behind any blanks. -/
theorem IsPlain.takesItem {levels : Nat} {document : Json} (h : IsPlain levels document)
    (blank : layout.IsBlank) (numeral : JsonNumber → Numeral) {depth fuel : Nat}
    (enough : (renderAt layout depth document).toList.length ≤ fuel) {close : Char}
    (closing : close = ']' ∨ close = '\x7d') :
    TakesItem (value fuel) close (renderAt layout depth document).toList
      (document.toWritten numeral) := by
  have other {c : Char} (differs : c ≠ ']' ∧ c ≠ '\x7d') : c ≠ close := by
    rcases closing with rfl | rfl
    · exact differs.1
    · exact differs.2
  induction h generalizing depth fuel close with
  | null =>
      rw [renderAt] at enough ⊢
      cases fuel with
      | zero => exact absurd enough (by decide)
      | succ fuel => exact takesItem_of_takes (by decide) (other (by decide)) (takes_word _ _)
  | bool levels b =>
      rw [renderAt] at enough ⊢
      cases fuel with
      | zero => cases b <;> exact absurd enough (by decide)
      | succ fuel =>
          cases b with
          | true => exact takesItem_of_takes (by decide) (other (by decide)) (takes_word _ _)
          | false => exact takesItem_of_takes (by decide) (other (by decide)) (takes_word _ _)
  | string levels s =>
      rw [renderAt, toList_stringText] at enough ⊢
      cases fuel with
      | zero => cases enough
      | succ fuel =>
          exact takesItem_of_takes (by decide) (other (by decide))
            ((takes_string s.toList).map Written.string)
  | @array levels items each ih =>
      rw [toList_renderAt_array] at enough ⊢
      cases fuel with
      | zero => cases enough
      | succ fuel =>
          have parts : List.Forall₂ (TakesItem (value fuel) ']')
              (items.map fun item => (renderAt layout (depth + 1) item).toList)
              (items.map (toWritten numeral)) := by
            rw [List.forall₂_map_left_iff, List.forall₂_map_right_iff, List.forall₂_same]
            intro item hitem
            exact ih item hitem (length_le_of_enclosed enough (List.mem_map_of_mem hitem))
              (.inl rfl) And.left
          rw [toWritten, itemsToWritten_eq]
          exact takesItem_of_takes (by decide) (other (by decide))
            (takes_enclosed blank parts (by decide) (by decide) Written.array)
  | @object levels members each ih =>
      rw [toList_renderAt_object] at enough ⊢
      cases fuel with
      | zero => cases enough
      | succ fuel =>
          have parts : List.Forall₂ (TakesItem (member (value fuel)) '\x7d')
              (members.map fun member => (memberText layout (depth + 1) member).toList)
              (members.map fun member =>
                (content member.1.toList, member.2.toWritten numeral)) := by
            rw [List.forall₂_map_left_iff, List.forall₂_map_right_iff, List.forall₂_same]
            intro member hmember
            have inside := length_le_of_enclosed enough (List.mem_map_of_mem hmember)
            rw [memberText, String.toList_append, List.length_append] at inside
            exact takesItem_member blank (by decide)
              (ih member hmember (by omega) (.inr rfl) And.right)
          rw [toWritten, membersToWritten_eq]
          exact takesItem_of_takes (by decide) (other (by decide))
            (takes_enclosed blank parts (by decide) (by decide) Written.object)

/-- What is printed without numbers is JSON text, and it is found as it is written. -/
theorem IsPlain.ofText?_render {levels : Nat} {document : Json} (h : IsPlain levels document)
    (blank : layout.IsBlank) (numeral : JsonNumber → Numeral) :
    Written.ofText? (render layout document) = some (document.toWritten numeral) := by
  have item : TakesItem (value (renderAt layout 0 document).toList.length) ']'
      (renderAt layout 0 document).toList (document.toWritten numeral) :=
    h.takesItem blank numeral (Nat.le_refl _) (.inl rfl)
  have found := item.behind [] rfl []
  rw [List.nil_append, List.append_nil] at found
  have run : Written.ofText? (render layout document) =
      (value (renderAt layout 0 document).toList.length (renderAt layout 0 document).toList).bind
        fun read => if read.2.all Grammar.isBlank then some read.1 else none := rfl
  rw [run, found]
  rfl

/-! ## With a meaning -/

theorem isSome_readItems? {levels : Nat} {items : List Written}
    (each : ∀ item ∈ items, (item.read? levels).isSome = true) :
    (readItems? levels items).isSome = true := by
  induction items with
  | nil => rfl
  | cons item rest ih =>
      obtain ⟨first, others⟩ := List.forall_mem_cons.mp each
      obtain ⟨document, read⟩ := Option.isSome_iff_exists.mp first
      obtain ⟨documents, reads⟩ := Option.isSome_iff_exists.mp (ih others)
      rw [readItems?, read, reads]
      rfl

theorem isSome_readMembers? {levels : Nat} {members : List (List Char × Written)}
    (names : ∀ member ∈ members, (stringOfContent? member.1).isSome = true)
    (each : ∀ member ∈ members, (member.2.read? levels).isSome = true) :
    (readMembers? levels members).isSome = true := by
  induction members with
  | nil => rfl
  | cons member rest ih =>
      obtain ⟨first, others⟩ := List.forall_mem_cons.mp each
      obtain ⟨named, names⟩ := List.forall_mem_cons.mp names
      obtain ⟨name, meant⟩ := Option.isSome_iff_exists.mp named
      obtain ⟨document, read⟩ := Option.isSome_iff_exists.mp first
      obtain ⟨documents, reads⟩ := Option.isSome_iff_exists.mp (ih names others)
      rw [readMembers?, meant, read, reads]
      rfl

/-- A document without numbers that is not too deep has a meaning. -/
theorem IsPlain.isSome_read? {levels : Nat} {document : Json} (h : IsPlain levels document)
    (numeral : JsonNumber → Numeral) {limit : Nat} (enough : levels < limit) :
    ((document.toWritten numeral).read? limit).isSome = true := by
  induction h generalizing limit with
  | null => rw [toWritten, Written.read?]; rfl
  | bool => rw [toWritten, Written.read?]; rfl
  | string levels s => rw [toWritten, Written.read?, stringOfContent?_content]; rfl
  | @array levels items each ih =>
      have open_left : ¬limit ≤ 1 := by omega
      rw [toWritten, itemsToWritten_eq, Written.read?, if_neg open_left, Option.isSome_map]
      refine isSome_readItems? (List.forall_mem_map.mpr fun item hitem => ?_)
      exact ih item hitem (by omega)
  | @object levels members each ih =>
      have open_left : ¬limit ≤ 1 := by omega
      rw [toWritten, membersToWritten_eq, Written.read?, if_neg open_left, Option.isSome_map]
      refine isSome_readMembers? (List.forall_mem_map.mpr fun member _ => ?_)
        (List.forall_mem_map.mpr fun member hmember => ?_)
      · rw [stringOfContent?_content]
        rfl
      · exact ih member hmember (by omega)

end Documents

end DataFilter.Json
