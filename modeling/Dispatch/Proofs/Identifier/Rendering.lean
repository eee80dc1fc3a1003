import Dispatch.Identifier.Template
import Dispatch.Proofs.Text.Search
/-!
What identifier formats stand for. No keyword begins with another one, so at most one of them stands behind a dollar
sign, in whatever order they are tried, and a format is split into characters that stand for themselves and keywords in
one way only. It renders exactly if it can be split, to the characters and the values of its keywords one after the
other, and the values are not looked at again.
-/
namespace Dispatch.Identifier

namespace Keyword

theorem mem_all (keyword : Keyword) : keyword ∈ all := by cases keyword <;> decide

theorem dollarless (keyword : Keyword) : '$' ∉ keyword.text := by cases keyword <;> decide

/-- No keyword begins with another one. -/
theorem eq_of_isPrefix {keyword other : Keyword} (begins : keyword.text <+: other.text) : keyword = other := by
  cases keyword <;> cases other <;> first | rfl | exact absurd begins (by decide)

/-- One text begins with one keyword at most. -/
theorem unique {keyword other : Keyword} {rest after : List Char}
    (same : keyword.text ++ rest = other.text ++ after) : keyword = other ∧ rest = after := by
  have one : keyword = other := by
    have begins : other.text <+: keyword.text ++ rest := ⟨after, same.symm⟩
    rcases List.prefix_or_prefix_of_prefix (List.prefix_append _ rest) begins with shorter | longer
    · exact eq_of_isPrefix shorter
    · exact (eq_of_isPrefix longer).symm
  subst one
  exact ⟨rfl, List.append_cancel_left same⟩

/-- The first of the keywords, in the given order, that a text begins with, and what follows it. -/
def readIn? (order : List Keyword) (text : List Char) : Option (Keyword × List Char) :=
  order.findSome? fun keyword => (Text.after? keyword.text text).map fun rest => (keyword, rest)

theorem eq_of_readIn? {order : List Keyword} {text rest : List Char} {keyword : Keyword}
    (read : readIn? order text = some (keyword, rest)) : text = keyword.text ++ rest := by
  obtain ⟨other, -, found⟩ := List.exists_of_findSome?_eq_some read
  obtain ⟨after, stands, same⟩ := Option.map_eq_some_iff.mp found
  obtain ⟨rfl, rfl⟩ := Prod.mk.inj same
  exact Text.after?_eq_some.mp stands

/-- Whichever order all keywords are tried in, the same one is found. -/
theorem readIn?_eq_some {order : List Keyword} (complete : ∀ keyword, keyword ∈ order) {text rest : List Char}
    {keyword : Keyword} : readIn? order text = some (keyword, rest) ↔ text = keyword.text ++ rest := by
  constructor
  · exact eq_of_readIn?
  · intro begins
    cases read : readIn? order text with
    | none =>
      have missed := List.findSome?_eq_none_iff.mp read keyword (complete keyword)
      rw [Text.after?_eq_some.mpr begins] at missed
      cases missed
    | some found =>
      obtain ⟨other, after⟩ := found
      obtain ⟨rfl, rfl⟩ := unique (begins.symm.trans (eq_of_readIn? read))
      rfl

theorem readIn?_eq_read? {order : List Keyword} (complete : ∀ keyword, keyword ∈ order) (text : List Char) :
    readIn? order text = read? text := by
  ext ⟨keyword, rest⟩
  rw [readIn?_eq_some complete]
  exact (readIn?_eq_some mem_all).symm

theorem read?_eq_some {text rest : List Char} {keyword : Keyword} :
    read? text = some (keyword, rest) ↔ text = keyword.text ++ rest := readIn?_eq_some mem_all

end Keyword

/-- No keyword stands in front of the text. -/
def IsStray (text : List Char) : Prop := ∀ keyword : Keyword, ¬keyword.text <+: text

theorem IsStray.read?_eq_none {text : List Char} (stray : IsStray text) : Keyword.read? text = none := by
  cases read : Keyword.read? text with
  | none => rfl
  | some found => exact absurd ⟨found.2, (Keyword.read?_eq_some.mp read).symm⟩ (stray found.1)

/-- A part of a format. -/
inductive Part
  | literal (c : Char)
  | placeholder (keyword : Keyword)
  deriving DecidableEq, Repr

/-- What is rendered for a part. -/
def Part.value (values : Values) : Part → List Char
  | literal c => [c]
  | placeholder keyword => keyword.value values

/-- The format is made of these parts: every dollar sign has its keyword behind it, and everything else stands for
itself. -/
inductive IsSplit : (format : List Char) → List Part → Prop
  | nil : IsSplit [] []
  | literal {c : Char} {format : List Char} {parts : List Part} (plain : c ≠ '$') (split : IsSplit format parts) :
      IsSplit (c :: format) (.literal c :: parts)
  | placeholder {format : List Char} {parts : List Part} (keyword : Keyword) (split : IsSplit format parts) :
      IsSplit ('$' :: (keyword.text ++ format)) (.placeholder keyword :: parts)

variable {values : Values} {format rest : List Char} {parts others : List Part}

/-- A format is split in one way only. -/
theorem IsSplit.unique (split : IsSplit format parts) (other : IsSplit format others) : parts = others := by
  induction split generalizing others with
  | nil =>
    cases other
    rfl
  | literal plain split ih =>
    cases other with
    | literal _ other => rw [ih other]
    | placeholder keyword other => exact absurd rfl plain
  | @placeholder format parts keyword split ih =>
    generalize whole : '$' :: (keyword.text ++ format) = text at other
    cases other with
    | nil => cases whole
    | literal plain other => exact absurd (List.cons.inj whole).1.symm plain
    | placeholder word other =>
      obtain ⟨one, same⟩ := Keyword.unique (List.cons.inj whole).2
      subst one
      subst same
      rw [ih other]

/-- Behind every dollar sign of a format that is split stands a keyword. -/
theorem IsSplit.isPrefix (split : IsSplit format parts) {front : List Char} (same : format = front ++ '$' :: rest) :
    ∃ keyword : Keyword, keyword.text <+: rest := by
  induction split generalizing front with
  | nil => exact absurd same.symm (List.append_ne_nil_of_right_ne_nil front (List.cons_ne_nil _ _))
  | literal plain split ih =>
    cases front with
    | nil => exact absurd (List.cons.inj same).1 plain
    | cons d front => exact ih (List.cons.inj same).2
  | @placeholder format parts keyword split ih =>
    cases front with
    | nil => exact ⟨keyword, format, (List.cons.inj same).2⟩
    | cons d front =>
      rcases List.append_eq_append_iff.mp (List.cons.inj same).2 with ⟨between, -, behind⟩ | ⟨overlap, word, behind⟩
      · exact ih behind
      · cases overlap with
        | nil =>
          have stands : format = [] ++ '$' :: rest := behind.symm
          exact ih stands
        | cons e overlap =>
          obtain ⟨rfl, -⟩ := List.cons.inj behind
          exact absurd (by simp [word]) keyword.dollarless

/-- Either a format is split, or a front of it is and the next dollar sign has no keyword behind it. -/
theorem exists_split_or_stray (format : List Char) : (∃ parts, IsSplit format parts) ∨
    ∃ front parts rest, format = front ++ '$' :: rest ∧ IsSplit front parts ∧ IsStray rest := by
  induction size : format.length using Nat.strongRecOn generalizing format with
  | _ size ih =>
    subst size
    cases format with
    | nil => exact .inl ⟨[], .nil⟩
    | cons c rest =>
      by_cases dollar : c = '$'
      · subst dollar
        by_cases keyed : ∃ keyword : Keyword, keyword.text <+: rest
        · obtain ⟨keyword, after, begins⟩ := keyed
          subst begins
          have shorter : after.length < ('$' :: (keyword.text ++ after)).length := by
            rw [List.length_cons, List.length_append]
            omega
          rcases ih after.length shorter after rfl with ⟨parts, split⟩ | ⟨front, parts, behind, same, split, stray⟩
          · exact .inl ⟨_, split.placeholder keyword⟩
          · exact .inr ⟨_, _, behind, by rw [same]; simp, split.placeholder keyword, stray⟩
        · exact .inr ⟨[], [], rest, rfl, .nil, fun keyword begins => keyed ⟨keyword, begins⟩⟩
      · rcases ih rest.length (by simp) rest rfl with ⟨parts, split⟩ | ⟨front, parts, behind, same, split, stray⟩
        · exact .inl ⟨_, split.literal dollar⟩
        · exact .inr ⟨c :: front, _, behind, by rw [same, List.cons_append], split.literal dollar, stray⟩

/-! ### Rendering by parts -/

theorem renderFrom_length (values : Values) (lead rest : List Char) :
    renderFrom values lead.length (lead ++ rest) = renderFrom values 0 rest := by
  induction lead with
  | nil => rfl
  | cons c lead ih => simpa [renderFrom] using ih

theorem renderFrom_literal {c : Char} (plain : c ≠ '$') :
    renderFrom values 0 (c :: rest) = (renderFrom values 0 rest).map (c :: ·) := by
  rw [renderFrom, if_neg plain]

theorem renderFrom_keyword (keyword : Keyword) :
    renderFrom values 0 ('$' :: (keyword.text ++ rest)) =
      (renderFrom values 0 rest).map (keyword.value values ++ ·) := by
  rw [renderFrom, if_pos rfl, Keyword.read?_eq_some.mpr rfl]
  simp only
  rw [renderFrom_length]

theorem renderFrom_stray (stray : IsStray rest) : renderFrom values 0 ('$' :: rest) = .error ('$' :: rest) := by
  rw [renderFrom, if_pos rfl, stray.read?_eq_none]

theorem map_map (result : Except (List Char) (List Char)) (first second : List Char) :
    (result.map (second ++ ·)).map (first ++ ·) = result.map (first ++ second ++ ·) := by
  cases result with
  | error rest => rfl
  | ok text => simp [Except.map]

/-- A format that is split renders to the values of its parts, whatever follows it. -/
theorem IsSplit.renderFrom_append (split : IsSplit format parts) (rest : List Char) :
    renderFrom values 0 (format ++ rest) =
      (renderFrom values 0 rest).map (parts.flatMap (Part.value values) ++ ·) := by
  induction split with
  | nil =>
    cases rendered : renderFrom values 0 rest with
    | error stray => rw [List.nil_append, rendered]; rfl
    | ok text => rw [List.nil_append, rendered]; rfl
  | literal plain split ih =>
    rw [List.cons_append, renderFrom_literal plain, ih]
    exact map_map _ [_] _
  | placeholder keyword split ih =>
    rw [List.cons_append, List.append_assoc, renderFrom_keyword, ih]
    exact map_map _ _ _

theorem IsSplit.renderFrom (split : IsSplit format parts) :
    renderFrom values 0 format = .ok (parts.flatMap (Part.value values)) := by
  rw [← List.append_nil format, split.renderFrom_append, Identifier.renderFrom, Except.map, List.append_nil]

theorem IsSplit.renderFrom_stray (split : IsSplit format parts) (stray : IsStray rest) :
    Identifier.renderFrom values 0 (format ++ '$' :: rest) = .error ('$' :: rest) := by
  rw [split.renderFrom_append, Identifier.renderFrom_stray stray]
  rfl

theorem renderFrom_eq_ok {text : List Char} : renderFrom values 0 format = .ok text ↔
    ∃ parts, IsSplit format parts ∧ text = parts.flatMap (Part.value values) := by
  constructor
  · intro rendered
    rcases exists_split_or_stray format with ⟨parts, split⟩ | ⟨front, parts, rest, same, split, stray⟩
    · rw [split.renderFrom] at rendered
      exact ⟨parts, split, (Except.ok.inj rendered).symm⟩
    · rw [same, split.renderFrom_stray stray] at rendered
      cases rendered
  · intro found
    obtain ⟨parts, split, same⟩ := found
    rw [split.renderFrom, same]

theorem renderFrom_eq_error {stray : List Char} : renderFrom values 0 format = .error stray ↔
    ∃ front parts rest, format = front ++ '$' :: rest ∧ IsSplit front parts ∧ IsStray rest ∧ stray = '$' :: rest := by
  constructor
  · intro rendered
    rcases exists_split_or_stray format with ⟨parts, split⟩ | ⟨front, parts, rest, same, split, isStray⟩
    · rw [split.renderFrom] at rendered
      cases rendered
    · rw [same, split.renderFrom_stray isStray] at rendered
      exact ⟨front, parts, rest, same, split, isStray, (Except.error.inj rendered).symm⟩
  · intro found
    obtain ⟨front, parts, rest, same, split, isStray, written⟩ := found
    rw [same, split.renderFrom_stray isStray, written]

/-! ### Formats -/

/-- What is told of a format, from the dollar sign on that has no keyword behind it. -/
def unknownPlaceholder (format : String) (stray : List Char) : Failure :=
  .system s!"Unknown placeholder at '{String.ofList stray}' in id format '{format}'"

/-- Rendering with the keywords tried in the given order. -/
def renderFromIn (order : List Keyword) (values : Values) :
    (skip : Nat) → List Char → Except (List Char) (List Char)
  | _, [] => .ok []
  | skip + 1, _ :: rest => renderFromIn order values skip rest
  | 0, c :: rest =>
    if c = '$' then
      match Keyword.readIn? order rest with
      | some (keyword, _) =>
        (renderFromIn order values keyword.text.length rest).map (keyword.value values ++ ·)
      | none => .error (c :: rest)
    else (renderFromIn order values 0 rest).map (c :: ·)

/-- What is answered for a format. -/
def answer (format : String) : Except (List Char) (List Char) → Except Failure String
  | .ok text => .ok (String.ofList text)
  | .error stray => .error (unknownPlaceholder format stray)

def renderIn (order : List Keyword) (format : String) (values : Values) : Except Failure String :=
  answer format (renderFromIn order values 0 format.toList)

theorem renderFromIn_eq {order : List Keyword} (complete : ∀ keyword, keyword ∈ order) (skip : Nat)
    (text : List Char) : renderFromIn order values skip text = renderFrom values skip text := by
  induction text generalizing skip with
  | nil => cases skip <;> rfl
  | cons c rest ih =>
    cases skip with
    | zero =>
      unfold renderFromIn renderFrom
      by_cases dollar : c = '$'
      · rw [if_pos dollar, if_pos dollar, Keyword.readIn?_eq_read? complete]
        cases Keyword.read? rest with
        | none => rfl
        | some found =>
          obtain ⟨keyword, -⟩ := found
          exact congrArg (Except.map (keyword.value values ++ ·)) (ih keyword.text.length)
      · rw [if_neg dollar, if_neg dollar, ih]
    | succ skip => exact ih skip

theorem render_eq_answer (format : String) (values : Values) :
    render format values = answer format (renderFrom values 0 format.toList) := rfl

theorem renderIn_eq {order : List Keyword} (complete : ∀ keyword, keyword ∈ order) (format : String) :
    renderIn order format values = render format values :=
  (congrArg (answer format) (renderFromIn_eq complete 0 format.toList)).trans (render_eq_answer format values).symm

theorem render_eq_ok {format text : String} : render format values = .ok text ↔
    ∃ parts, IsSplit format.toList parts ∧ text.toList = parts.flatMap (Part.value values) := by
  rw [← renderFrom_eq_ok, render]
  cases renderFrom values 0 format.toList with
  | error rest => simp
  | ok rendered => rw [Except.ok.injEq, Except.ok.injEq, ← String.toList_inj, String.toList_ofList]

/-- Nothing is rendered exactly if a dollar sign has no keyword behind it, and the first such place is told. -/
theorem render_eq_error {format : String} {failure : Failure} : render format values = .error failure ↔
    ∃ front parts rest, format.toList = front ++ '$' :: rest ∧ IsSplit front parts ∧ IsStray rest ∧
      failure = unknownPlaceholder format ('$' :: rest) := by
  rw [render]
  constructor
  · intro rendered
    cases found : renderFrom values 0 format.toList with
    | ok text =>
      rw [found] at rendered
      cases rendered
    | error stray =>
      rw [found] at rendered
      obtain ⟨front, parts, rest, same, split, isStray, written⟩ := renderFrom_eq_error.mp found
      refine ⟨front, parts, rest, same, split, isStray, ?_⟩
      rw [← written]
      exact (Except.error.inj rendered).symm
  · intro found
    obtain ⟨front, parts, rest, same, split, isStray, told⟩ := found
    rw [renderFrom_eq_error.mpr ⟨front, parts, rest, same, split, isStray, rfl⟩, told]
    rfl

/-- A format renders exactly if every dollar sign has a keyword behind it. -/
theorem exists_render_iff {format : String} : (∃ text, render format values = .ok text) ↔
    ∀ front rest, format.toList = front ++ '$' :: rest → ∃ keyword : Keyword, keyword.text <+: rest := by
  constructor
  · intro rendered front rest same
    obtain ⟨text, rendered⟩ := rendered
    obtain ⟨parts, split, -⟩ := render_eq_ok.mp rendered
    exact split.isPrefix same
  · intro keyed
    rcases exists_split_or_stray format.toList with ⟨parts, split⟩ | ⟨front, parts, rest, same, split, stray⟩
    · exact ⟨String.ofList _, render_eq_ok.mpr ⟨parts, split, String.toList_ofList⟩⟩
    · obtain ⟨keyword, begins⟩ := keyed front rest same
      exact absurd begins (stray keyword)

/-- What follows a format that renders is rendered as if it stood alone. -/
theorem render_append {format text : String} (rendered : render format values = .ok text) (more whole : String) :
    render (format ++ more) values = .ok whole ↔ ∃ rest, render more values = .ok rest ∧ whole = text ++ rest := by
  obtain ⟨parts, split, same⟩ := render_eq_ok.mp rendered
  rw [render, String.toList_append, split.renderFrom_append, ← same, render]
  cases renderFrom values 0 more.toList with
  | error stray => simp [Except.map]
  | ok after =>
    have joined : String.ofList (text.toList ++ after) = text ++ String.ofList after := by
      rw [String.ofList_append, String.ofList_toList]
    simp [Except.map, joined, eq_comm]

/-- A format renders exactly if it can be split, and then to the values of its parts; the split is the only one. If it
does not, the first dollar sign without a keyword is told. The order in which keywords are tried makes no difference,
and of a format that renders, the rest is rendered as if it stood alone. -/
theorem formats_render_by_parts (format : String) (values : Values) :
    ((∃ text, render format values = .ok text) ↔
        ∀ front rest, format.toList = front ++ '$' :: rest → ∃ keyword : Keyword, keyword.text <+: rest) ∧
      (∀ text, render format values = .ok text ↔
        ∃ parts, IsSplit format.toList parts ∧ text.toList = parts.flatMap (Part.value values)) ∧
      (∀ parts others, IsSplit format.toList parts → IsSplit format.toList others → parts = others) ∧
      (∀ failure, render format values = .error failure ↔
        ∃ front parts rest, format.toList = front ++ '$' :: rest ∧ IsSplit front parts ∧ IsStray rest ∧
          failure = unknownPlaceholder format ('$' :: rest)) ∧
      (∀ order : List Keyword, (∀ keyword, keyword ∈ order) → renderIn order format values = render format values) ∧
      (∀ text, render format values = .ok text → ∀ more whole, render (format ++ more) values = .ok whole ↔
        ∃ rest, render more values = .ok rest ∧ whole = text ++ rest) := by
  refine ⟨exists_render_iff, fun text => render_eq_ok, fun parts others split other => split.unique other,
    fun failure => render_eq_error, fun order complete => renderIn_eq complete format, ?_⟩
  intro text rendered more whole
  exact render_append rendered more whole

/-- A counter and a name that looks like a keyword. -/
def shadowed : Values where
  counter := 17
  kind := .job
  name := "$SITE"
  site := "lyon"
  now := default

/-- The name is not read as a keyword, and the next format is rendered behind it as if it stood alone. -/
theorem jobFormat_renders_by_parts : render "J_$CPT@$MANAME" shadowed = .ok "J_17@$SITE" ∧
    renderIn Keyword.all.reverse "J_$CPT@$MANAME" shadowed = .ok "J_17@$SITE" ∧
    render ("J_$CPT@$MANAME" ++ "-$TYPE") shadowed = .ok ("J_17@$SITE" ++ "-J") := by
  obtain ⟨_, _, _, _, orders, behind⟩ := formats_render_by_parts "J_$CPT@$MANAME" shadowed
  have rendered : render "J_$CPT@$MANAME" shadowed = .ok "J_17@$SITE" := by rfl
  have backwards := orders Keyword.all.reverse fun keyword => List.mem_reverse.mpr keyword.mem_all
  refine ⟨rendered, backwards.trans rendered, ?_⟩
  exact (behind "J_17@$SITE" rendered "-$TYPE" _).mpr ⟨"-J", by rfl, rfl⟩

end Dispatch.Identifier
