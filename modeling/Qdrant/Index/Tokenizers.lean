/-
# The tokenizers of the full-text index

`full_text_index/tokenizers.rs` cuts a text into the tokens that the inverted index stores for
a document, or looks up for a query, under the index's `TextIndexParams`:

* `Whitespace` splits at whitespace (`split_whitespace`) and `Word` at every character that is
  not alphanumeric, both without the empty pieces;
* `Prefix` splits as `Word`, and then emits for a document every prefix of each word from
  `min_token_len` to `max_token_len` characters (the word itself, once, when the range reaches
  its length), and for a query the prefix of `max_token_len` characters;
* `doc_token_filter`, on the way to the callback, drops a token that is shorter than
  `min_token_len` or longer than `max_token_len` both in bytes and in characters, and
  lowercases the rest unless `lowercase` is `false`.

A text is split as its list of characters; `char::is_alphanumeric`, `char::is_whitespace` and
`str::to_lowercase` are those of `Env`.  The callback's calls are the list of tokens, in order.

`tokenizeQuery_mem_tokenizeDoc` is what the prefix tokenizer is for: a query word that starts a
word of a document, and whose length lies in the configured range, yields a token of that
document.
-/
import Qdrant.Index.QueryEstimator

namespace Qdrant

/-! ## 1. Configuration -/

/-- `TokenizerType`; `Prefix` is `prefixNgram`. -/
inductive TokenizerType where
  | prefixNgram
  | whitespace
  | word
deriving DecidableEq, Repr

/-- `TextIndexParams`, with its defaults (its `type` is always `text`). -/
structure TextIndexParams where
  tokenizer : TokenizerType := .word
  minTokenLen : Option ℕ := none
  maxTokenLen : Option ℕ := none
  lowercase : Option Bool := none
deriving DecidableEq, Repr

/-! ## 2. The three tokenizers -/

/-- `text.split(sep).filter(|x| !x.is_empty())`: the maximal runs of characters not in `sep`. -/
def splitNonEmpty (sep : Char → Bool) (text : List Char) : List (List Char) :=
  (text.splitOnP sep).filter (!·.isEmpty)

/-- `WhiteSpaceTokenizer::tokenize`. -/
def WhiteSpaceTokenizer.tokenize (env : Env) (text : String) : List String :=
  (splitNonEmpty env.isWhitespace text.toList).map String.ofList

/-- `WordTokenizer::tokenize`. -/
def WordTokenizer.tokenize (env : Env) (text : String) : List String :=
  (splitNonEmpty (!env.isAlphanumeric ·) text.toList).map String.ofList

/-- The loop `for n in min_ngram..=max_ngram` of `PrefixTokenizer::tokenize` over one word, at
`n` with `count` iterations left: `nth(n)` of the character offsets exists while the word is
longer than `n`, and the loop emits the first `n` characters; otherwise it emits the word and
breaks. -/
def prefixNgrams (word : List Char) : (n count : ℕ) → List (List Char)
  | _, 0 => []
  | n, count + 1 =>
    if n < word.length then word.take n :: prefixNgrams word (n + 1) count else [word]

/-- `PrefixTokenizer::tokenize`: `max_ngram + 1 - min_ngram` iterations, none when
`min_ngram > max_ngram`. -/
def PrefixTokenizer.tokenize (env : Env) (text : String) (minNgram maxNgram : ℕ) :
    List String :=
  (splitNonEmpty (!env.isAlphanumeric ·) text.toList).flatMap fun word =>
    (prefixNgrams word minNgram (maxNgram + 1 - minNgram)).map String.ofList

/-- `PrefixTokenizer::tokenize_query`: the first `max_ngram` characters of each word. -/
def PrefixTokenizer.tokenizeQuery (env : Env) (text : String) (maxNgram : ℕ) : List String :=
  (splitNonEmpty (!env.isAlphanumeric ·) text.toList).map fun word =>
    String.ofList (if maxNgram < word.length then word.take maxNgram else word)

/-! ## 3. `Tokenizer` -/

/-- `Tokenizer::doc_token_filter`: what the callback receives for a token, if anything. -/
def docTokenFilter (env : Env) (config : TextIndexParams) (token : String) : Option String :=
  if (config.minTokenLen.map fun minLen =>
      decide (token.utf8ByteSize < minLen ∧ token.length < minLen)).getD false then none
  else if (config.maxTokenLen.map fun maxLen =>
      decide (token.utf8ByteSize > maxLen ∧ token.length > maxLen)).getD false then none
  else if config.lowercase.getD true then some (env.toLowercase token)
  else some token

/-- `Tokenizer::tokenize_doc`. -/
def tokenizeDoc (env : Env) (text : String) (config : TextIndexParams) : List String :=
  (match config.tokenizer with
    | .whitespace => WhiteSpaceTokenizer.tokenize env text
    | .word => WordTokenizer.tokenize env text
    | .prefixNgram => PrefixTokenizer.tokenize env text (config.minTokenLen.getD 1)
        (config.maxTokenLen.getD usizeMax)).filterMap (docTokenFilter env config)

/-- `Tokenizer::tokenize_query`. -/
def tokenizeQuery (env : Env) (text : String) (config : TextIndexParams) : List String :=
  (match config.tokenizer with
    | .whitespace => WhiteSpaceTokenizer.tokenize env text
    | .word => WordTokenizer.tokenize env text
    | .prefixNgram => PrefixTokenizer.tokenizeQuery env text
        (config.maxTokenLen.getD usizeMax)).filterMap (docTokenFilter env config)

/-! ## 4. Prefix search -/

/-- The loop emits the first `k` characters for every `k` it runs through up to the word's
length, the word itself at its length. -/
theorem take_mem_prefixNgrams (word : List Char) :
    ∀ {n count k : ℕ}, n ≤ k → k < n + count → k ≤ word.length →
      word.take k ∈ prefixNgrams word n count
  | _, 0, _, hn, hk, _ => by omega
  | n, count + 1, k, hn, hk, hlen => by
    rw [prefixNgrams]
    split_ifs with hlt
    · rcases hn.lt_or_eq with hn | rfl
      · exact List.mem_cons_of_mem _ (take_mem_prefixNgrams word hn (by omega) hlen)
      · exact List.mem_cons_self
    · -- the word ends at `n ≤ k`, so its first `k` characters are the word
      rw [List.take_of_length_le (by omega)]
      exact List.mem_singleton_self _

/-- No piece of a split holds a separator. -/
theorem sep_eq_false_of_mem_splitOnP {sep : Char → Bool} :
    ∀ {text piece : List Char}, piece ∈ text.splitOnP sep → ∀ c ∈ piece, sep c = false
  | [], piece, hpiece, c, hc => by simp_all
  | x :: text, piece, hpiece, c, hc => by
    rw [List.splitOnP_cons_eq_if_modifyHead] at hpiece
    split_ifs at hpiece with hx
    · rcases List.mem_cons.mp hpiece with rfl | hpiece
      · simp at hc
      · exact sep_eq_false_of_mem_splitOnP hpiece c hc
    · -- `x` joins the first piece of the rest
      obtain ⟨first, rest, hsplit⟩ := List.exists_cons_of_ne_nil (List.splitOnP_ne_nil sep text)
      rw [hsplit, List.modifyHead_cons] at hpiece
      rcases List.mem_cons.mp hpiece with rfl | hpiece
      · rcases List.mem_cons.mp hc with rfl | hc
        · simpa using hx
        · exact sep_eq_false_of_mem_splitOnP (hsplit ▸ List.mem_cons_self) c hc
      · exact sep_eq_false_of_mem_splitOnP (hsplit ▸ List.mem_cons_of_mem _ hpiece) c hc

/-- A word that no separator cuts is its only piece. -/
theorem splitNonEmpty_of_forall {sep : Char → Bool} {word : List Char} (hne : word ≠ [])
    (hword : ∀ c ∈ word, sep c = false) : splitNonEmpty sep word = [word] := by
  rw [splitNonEmpty, List.splitOnP_eq_singleton hword]
  simp [hne]

/-- **A prefix query finds the words it starts**: under the `Prefix` tokenizer, when the query
`q` starts a word `d` of a document's text and has at least `min_token_len` (default `1`) and
at most `max_token_len` characters, every token of the query is a token of the document. -/
theorem tokenizeQuery_mem_tokenizeDoc (env : Env) {config : TextIndexParams}
    (hcfg : config.tokenizer = .prefixNgram) {text : String} {q d : List Char}
    (hd : d ∈ splitNonEmpty (!env.isAlphanumeric ·) text.toList) (hq : q <+: d)
    (hmin : config.minTokenLen.getD 1 ≤ q.length)
    (hmax : q.length ≤ config.maxTokenLen.getD usizeMax) :
    ∀ t ∈ tokenizeQuery env (String.ofList q) config, t ∈ tokenizeDoc env text config := by
  intro t ht
  by_cases hne : q = []
  · subst hne
    simp [tokenizeQuery, hcfg, PrefixTokenizer.tokenizeQuery, splitNonEmpty] at ht
  -- the query is one word of the text's alphabet, and its one token is the query itself
  have hword : ∀ c ∈ q, (!env.isAlphanumeric c) = false := fun c hc =>
    sep_eq_false_of_mem_splitOnP (List.mem_filter.mp hd).1 c (hq.subset hc)
  have hquery : docTokenFilter env config (String.ofList q) = some t := by
    simpa [tokenizeQuery, hcfg, PrefixTokenizer.tokenizeQuery, splitNonEmpty_of_forall hne hword,
      not_lt.mpr hmax] using ht
  -- the document's loop over `d` emits the first `q.length` characters, which are `q`
  have hngram : q ∈ prefixNgrams d (config.minTokenLen.getD 1)
      (config.maxTokenLen.getD usizeMax + 1 - config.minTokenLen.getD 1) := by
    rw [List.prefix_iff_eq_take.mp hq]
    exact take_mem_prefixNgrams d hmin (by omega) hq.length_le
  rw [tokenizeDoc, hcfg]
  exact List.mem_filterMap.mpr ⟨String.ofList q,
    List.mem_flatMap.mpr ⟨d, hd, List.mem_map_of_mem hngram⟩, hquery⟩

end Qdrant
