import DocPress.Syntax.Grammar

/-!
The grammar of differences between files, in the normal, the context and the unified form.
-/

namespace DocPress.Syntax.Language

/-- The grammar of differences between files. -/
def diff : Grammar where
  scope := "source.diff"
  contexts :=
    [context "main" ""
      [rule "^(?:(\\*\\*\\*\\*\\*\\*\\*\\*\\*\\*\\*\\*\\*\\*\\*)|(===============+)|(---))$\\n?"
          "meta.separator.diff" .stay
          [(1, "punctuation.definition.separator.diff"),
            (2, "punctuation.definition.separator.diff"),
            (3, "punctuation.definition.separator.diff")],
        rule "^\\d+(?:,\\d+)*[adc]\\d+(?:,\\d+)*$\\n?" "meta.diff.range.normal",
        rule "^(@@)\\s*(.+?)\\s*(@@)($\\n?)?" "meta.diff.range.unified" .stay
          [(1, "punctuation.definition.range.diff"), (2, "meta.toc-list.line-number.diff"),
            (3, "punctuation.definition.range.diff")],
        rule "^(?:(---) .+ (----)|(\\*\\*\\*) .+ (\\*\\*\\*\\*))$\\n?" "meta.diff.range.context" .stay
          [(1, "punctuation.definition.range.diff"), (2, "punctuation.definition.range.diff"),
            (3, "punctuation.definition.range.diff"), (4, "punctuation.definition.range.diff")],
        rule "^(?:(---) .+|(\\*\\*\\*) .+)$\\n?|^(====) .+(?= - )" "meta.diff.header.from-file" .stay
          [(1, "punctuation.definition.from-file.diff"),
            (2, "punctuation.definition.from-file.diff"),
            (3, "punctuation.definition.from-file.diff")],
        rule "^(\\+\\+\\+) .+$\\n?| (-) .* (====)$\\n?" "meta.diff.header.to-file" .stay
          [(1, "punctuation.definition.to-file.diff"), (2, "punctuation.definition.to-file.diff"),
            (3, "punctuation.definition.to-file.diff")],
        rule "^(?:(>)(?: .*)?|(\\+).*)$\\n?" "markup.inserted.diff" .stay
          [(1, "punctuation.definition.inserted.diff"),
            (2, "punctuation.definition.inserted.diff")],
        rule "^(!).*$\\n?" "markup.changed.diff" .stay
          [(1, "punctuation.definition.changed.diff")],
        rule "^(?:(<)(?: .*)?|(-).*)$\\n?" "markup.deleted.diff" .stay
          [(1, "punctuation.definition.deleted.diff"),
            (2, "punctuation.definition.deleted.diff")],
        rule "^Index(:) (.+)$\\n?" "meta.diff.index" .stay
          [(1, "punctuation.separator.key-value.diff"),
            (2, "meta.toc-list.file-name.diff")]]]

end DocPress.Syntax.Language
