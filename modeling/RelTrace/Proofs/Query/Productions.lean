import RelTrace.Proofs.Query.Grammar
import RelTrace.Proofs.Query.Seams

/-!
# How productions are written

Each production of the grammar has a text: its symbols around the texts of its parts. Wherever the
text stands, its tokens derive the tree of the production from the trees of the parts, each part
being placed behind what is written before it. A condition loses the characters that no token keeps.
-/

namespace RelTrace

open Grammar Token

/-- What tokens keep of a text. -/
def keptText (s : String) : String := String.ofList (s.toList.filter isKept)

variable {position : Nat} {cs ls rs gap : List Char} {e l r : Expr} {names : List String}

theorem Token.stop_symbol (kind : Kind) (symbol : Char) (position : Nat) :
    stop ⟨kind, String.ofList [symbol], position⟩ = position + 1 := by
  simp [stop]

/-- A name before other names. -/
theorem Grammar.Names.cons {t c : Token} {ts : List Token} (h : Names ts names)
    (ht : t.kind = .identifier) (hc : c.kind = .comma) :
    Names (t :: c :: ts) (t.text :: names) := by
  induction h with
  | single ht' => exact .more (.single ht) hc ht'
  | more _ hc' ht' ih => exact .more ih hc' ht'

/-- The tokens of names with commas between them. Dropped characters may follow a comma. -/
theorem names_scan {separator name : String} (hseparator : separator.toList = ',' :: gap)
    (hgap : ∀ c ∈ gap, isKept c = false) (hname : IsName name) (hnames : ∀ a ∈ names, IsName a)
    (position : Nat) :
    Names (scan position [] (separator.intercalate (name :: names)).toList) (name :: names) := by
  induction names generalizing name position with
  | nil => simpa [hname.scan] using Names.single (t := ⟨.identifier, name, position⟩) rfl
  | cons other names ih =>
    have hrest := ih (hnames other (by simp)) (fun a ha => hnames a (by simp [ha]))
      (position + name.toList.length + 1 + gap.length)
    have htext : (separator.intercalate (name :: other :: names)).toList =
        name.toList ++ ',' :: (gap ++ (separator.intercalate (other :: names)).toList) := by
      simp [List.intercalate, hseparator]
    rw [htext, scan_append (by simp; rfl), hname.scan, scan_symbol (k := .comma) rfl,
      scan_of_dropped hgap (.inl rfl)]
    exact hrest.cons rfl rfl

theorem nameList_scan {separator : String} (hseparator : separator.toList = ',' :: gap)
    (hgap : ∀ c ∈ gap, isKept c = false) (hnames : ∀ a ∈ names, IsName a) (position : Nat) :
    NameList (scan position [] (separator.intercalate names).toList) names := by
  cases names with
  | nil =>
    have htext : (separator.intercalate []).toList = [] := by simp
    rw [htext]
    exact .empty
  | cons name names =>
    exact .names (names_scan hseparator hgap (hnames name (by simp))
      (fun a ha => hnames a (by simp [ha])) position)

namespace Grammar.Derives

theorem group_scan (h : Derives .expression (scan (position + 1) [] cs) e) :
    Derives .primary (scan position [] ('(' :: (cs ++ [')']))) e := by
  rw [scan_symbol (k := .leftParen) rfl, scan_append (by simp; rfl),
    scan_symbol (k := .rightParen) rfl]
  exact .group rfl h rfl

theorem project_scan (hns : NameList (scan (position + 2) [] ls) names)
    (h : Derives .expression (scan (position + ls.length + 4) [] cs) e) :
    Derives .primary (scan position [] ('π' :: '[' :: (ls ++ ']' :: '(' :: (cs ++ [')']))))
      (.project names e ⟨position, position + ls.length + cs.length + 5⟩) := by
  have hoperand : position + 1 + 1 + ls.length + 1 + 1 = position + ls.length + 4 := by omega
  have hstop : position + ls.length + cs.length + 5 =
      stop ⟨.rightParen, String.ofList [')'], position + ls.length + 4 + cs.length⟩ := by
    rw [stop_symbol]
    omega
  rw [scan_symbol (k := .projection) rfl, scan_symbol (k := .leftBracket) rfl,
    scan_append (by simp; rfl), scan_symbol (k := .rightBracket) rfl,
    scan_symbol (k := .leftParen) rfl, scan_append (by simp; rfl),
    scan_symbol (k := .rightParen) rfl, hoperand, hstop]
  exact .projection rfl rfl hns rfl rfl h rfl

theorem select_scan {raw : String} (hraw : ']' ∉ raw.toList)
    (h : Derives .expression (scan (position + raw.length + 4) [] cs) e) :
    Derives .primary (scan position [] ('σ' :: '[' :: (raw.toList ++ ']' :: '(' :: (cs ++ [')']))))
      (.select (keptText raw) e ⟨position, position + raw.length + cs.length + 5⟩) := by
  have hoperand : position + 1 + 1 + raw.toList.length + 1 + 1 = position + raw.length + 4 := by
    rw [String.length_toList]
    omega
  have hstop : position + raw.length + cs.length + 5 =
      stop ⟨.rightParen, String.ofList [')'], position + raw.length + 4 + cs.length⟩ := by
    rw [stop_symbol]
    omega
  have htext : keptText raw = joinTexts (scan (position + 1 + 1) [] raw.toList) := by
    rw [joinTexts_scan]
    rfl
  rw [scan_symbol (k := .selection) rfl, scan_symbol (k := .leftBracket) rfl,
    scan_append (by simp; rfl), scan_symbol (k := .rightBracket) rfl,
    scan_symbol (k := .leftParen) rfl, scan_append (by simp; rfl),
    scan_symbol (k := .rightParen) rfl, hoperand, hstop, htext]
  exact .selection rfl rfl (kind_ne_of_not_mem hraw rfl) rfl rfl h rfl

theorem join_scan {raw : String} (hraw : '}' ∉ raw.toList)
    (hl : Derives .joins (scan position [] ls) l)
    (hr : Derives .primary (scan (position + ls.length + raw.length + 6) [] rs) r) :
    Derives .joins
      (scan position [] (ls ++ ' ' :: '⋈' :: '_' :: '{' :: (raw.toList ++ '}' :: ' ' :: rs)))
      (.joinOn (keptText raw) l r) := by
  have hright : position + ls.length + 1 + 1 + 1 + 1 + raw.toList.length + 1 + 1 =
      position + ls.length + raw.length + 6 := by
    rw [String.length_toList]
    omega
  have htext : keptText raw =
      joinTexts (scan (position + ls.length + 1 + 1 + 1 + 1) [] raw.toList) := by
    rw [joinTexts_scan]
    rfl
  rw [scan_append (by simp; rfl), scan_space, scan_symbol (k := .join) rfl,
    scan_symbol (k := .underscore) rfl, scan_symbol (k := .leftBrace) rfl,
    scan_append (by simp; rfl), scan_symbol (k := .rightBrace) rfl, scan_space, hright, htext]
  exact .join hl rfl rfl rfl (kind_ne_of_not_mem hraw rfl) rfl hr

theorem union_scan (hl : Derives .joins (scan position [] ls) l)
    (hr : Derives .expression (scan (position + ls.length + 3) [] rs) r) :
    Derives .expression (scan position [] (ls ++ ' ' :: '∪' :: ' ' :: rs)) (l.unite r) := by
  rw [scan_append (by simp; rfl), scan_space, scan_symbol (k := .union) rfl, scan_space]
  exact .union hl rfl hr

end Grammar.Derives

end RelTrace
