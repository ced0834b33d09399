import ChartValues.Proofs.Document.Lines

/-!
# Documents from lines

A document is a text, and its lines come from cutting the text at line feeds. Conversely any lines that hold
no line feed are the lines of some document (`texts_ofTexts`). Each is written with a carriage return and a
line feed, so that a carriage return at the end of a line stays part of it.
-/

namespace ChartValues

namespace Line

theorem split_append_feed {cs : List Char} (h : '\n' ∉ cs) (start : Nat) (reversed rest : List Char) :
    split start reversed (cs ++ '\n' :: rest) =
      ofReversed start (dropReturn (cs.reverse ++ reversed)) ::
        split (start + byteLength (cs.reverse ++ reversed) + 1) [] rest := by
  induction cs generalizing reversed with
  | nil => simp [split]
  | cons c cs ih =>
    have hc : c ≠ '\n' := fun hc => h (hc ▸ List.mem_cons_self)
    have hcs : '\n' ∉ cs := fun hcs => h (List.mem_cons_of_mem _ hcs)
    rw [List.cons_append, split, if_neg hc, ih hcs, List.reverse_cons, List.append_assoc]
    rfl

theorem subset_dropReturn (cs : List Char) : dropReturn cs ⊆ cs := by
  cases cs with
  | nil => exact List.Subset.refl _
  | cons c cs =>
    rw [dropReturn.eq_def]
    split
    · rename_i heq
      rw [heq]
      exact List.subset_cons_self _ _
    · exact List.Subset.refl _

theorem noFeed_split (cs : List Char) : ∀ (start : Nat) (reversed : List Char), '\n' ∉ reversed →
    ∀ line ∈ split start reversed cs, '\n' ∉ line.text.toList := by
  induction cs with
  | nil =>
    intro start reversed hreversed line hline
    rw [Line.split] at hline
    split at hline
    · simp at hline
    · rw [List.mem_singleton.mp hline]
      simpa [ofReversed] using hreversed
  | cons c cs ih =>
    intro start reversed hreversed line hline
    rw [Line.split] at hline
    split at hline
    · rcases List.mem_cons.mp hline with rfl | hrest
      · have hdrop : '\n' ∉ dropReturn reversed := fun h => hreversed (subset_dropReturn _ h)
        simpa [ofReversed] using hdrop
      · exact ih _ [] (by simp) line hrest
    · rename_i hc
      exact ih start (c :: reversed) (by simp [hreversed, Ne.symm hc]) line hline

end Line

namespace Document

def texts (d : Document) : List String := d.lines.map Line.text

theorem line?_succ_eq (d : Document) (n : Nat) : d.line? (n + 1) = d.texts[n]? := by
  rw [line?_succ, texts, List.getElem?_map]

theorem upFrom_eq_take (d : Document) (n : Nat) : d.upFrom n = (d.texts.take n).reverse := by
  rw [upFrom, texts, List.map_take]

theorem noFeed_texts (d : Document) : ∀ text ∈ d.texts, '\n' ∉ text.toList := by
  intro text htext
  obtain ⟨line, hline, rfl⟩ := List.mem_map.mp htext
  exact Line.noFeed_split d.source.toList 0 [] (by simp) line hline

/-- The document that is written line by line. -/
def ofTexts (name : String) (texts : List String) : Document :=
  ⟨name, String.join (texts.map (· ++ "\r\n"))⟩

theorem map_text_split_join (texts : List String) (h : ∀ text ∈ texts, '\n' ∉ text.toList)
    (start : Nat) :
    (Line.split start [] (String.join (texts.map (· ++ "\r\n"))).toList).map Line.text = texts := by
  induction texts generalizing start with
  | nil => rfl
  | cons text rest ih =>
    have htext : '\n' ∉ text.toList ++ ['\r'] := by simp [h text List.mem_cons_self]
    have hchars : (String.join ((text :: rest).map (· ++ "\r\n"))).toList =
        (text.toList ++ ['\r']) ++
          '\n' :: (String.join (rest.map (· ++ "\r\n"))).toList := by
      simp [String.toList_join]
    have hdrop : Line.dropReturn ((text.toList ++ ['\r']).reverse ++ []) = text.toList.reverse := by
      simp [Line.dropReturn]
    rw [hchars, Line.split_append_feed htext, hdrop, List.map_cons,
      ih fun text' htext' => h text' (List.mem_cons_of_mem _ htext')]
    simp [Line.ofReversed]

theorem texts_ofTexts (name : String) {texts : List String}
    (h : ∀ text ∈ texts, '\n' ∉ text.toList) : (ofTexts name texts).texts = texts :=
  map_text_split_join texts h 0

end Document

end ChartValues
