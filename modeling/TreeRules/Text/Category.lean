import TreeRules.Text.CodePoints

/-!
# Text/Category — the general category of a character

Unicode puts every code point into one of thirty classes.  The table is the sequence of maximal
runs of equal class from code point 0 upward; what lies beyond it is unassigned.
-/

namespace TreeRules.Text

/-- The thirty general categories, by their two-letter codes. -/
inductive Category where
  /-- Uppercase letter. -/
  | lu
  /-- Lowercase letter. -/
  | ll
  /-- Titlecase letter. -/
  | lt
  /-- Modifier letter. -/
  | lm
  /-- Other letter. -/
  | lo
  /-- Nonspacing mark. -/
  | mn
  /-- Spacing mark. -/
  | mc
  /-- Enclosing mark. -/
  | me
  /-- Decimal digit. -/
  | nd
  /-- Letter used as a number. -/
  | nl
  /-- Other number. -/
  | no
  /-- Connector punctuation. -/
  | pc
  /-- Dash. -/
  | pd
  /-- Opening punctuation. -/
  | ps
  /-- Closing punctuation. -/
  | pe
  /-- Initial quotation mark. -/
  | pi
  /-- Final quotation mark. -/
  | pf
  /-- Other punctuation. -/
  | po
  /-- Mathematical symbol. -/
  | sm
  /-- Currency symbol. -/
  | sc
  /-- Modifier symbol. -/
  | sk
  /-- Other symbol. -/
  | so
  /-- Space. -/
  | zs
  /-- Line separator. -/
  | zl
  /-- Paragraph separator. -/
  | zp
  /-- Control. -/
  | cc
  /-- Format. -/
  | cf
  /-- Surrogate. -/
  | cs
  /-- Private use. -/
  | co
  /-- Unassigned. -/
  | cn
  deriving DecidableEq, Repr

namespace Category

/-! ## The runs, in order -/

/-- Runs of equal category, part 1. -/
def runsA : Runs Category :=
  [
    (32, .cc), (1, .zs), (3, .po), (1, .sc), (3, .po), (1, .ps), (1, .pe), (1, .po), (1, .sm),
    (1, .po), (1, .pd), (2, .po), (10, .nd), (2, .po), (3, .sm), (2, .po), (26, .lu),
    (1, .ps), (1, .po), (1, .pe), (1, .sk), (1, .pc), (1, .sk), (26, .ll), (1, .ps), (1, .sm),
    (1, .pe), (1, .sm), (33, .cc), (1, .zs), (1, .po), (4, .sc), (1, .so), (1, .po), (1, .sk),
    (1, .so), (1, .lo), (1, .pi), (1, .sm), (1, .cf), (1, .so), (1, .sk), (1, .so), (1, .sm),
    (2, .no), (1, .sk), (1, .ll), (2, .po), (1, .sk), (1, .no), (1, .lo), (1, .pf), (3, .no),
    (1, .po), (23, .lu), (1, .sm), (7, .lu), (24, .ll), (1, .sm), (8, .ll), (1, .lu),
    (1, .ll), (1, .lu), (1, .ll), (1, .lu), (1, .ll), (1, .lu), (1, .ll), (1, .lu), (1, .ll),
    (1, .lu), (1, .ll), (1, .lu), (1, .ll), (1, .lu), (1, .ll), (1, .lu), (1, .ll), (1, .lu),
    (1, .ll), (1, .lu), (1, .ll), (1, .lu), (1, .ll), (1, .lu), (1, .ll), (1, .lu), (1, .ll),
    (1, .lu), (1, .ll), (1, .lu), (1, .ll), (1, .lu), (1, .ll), (1, .lu), (1, .ll), (1, .lu),
    (1, .ll), (1, .lu), (1, .ll), (1, .lu), (1, .ll), (1, .lu), (1, .ll), (1, .lu), (1, .ll),
    (1, .lu), (1, .ll), (1, .lu), (1, .ll), (1, .lu), (1, .ll), (1, .lu), (1, .ll), (1, .lu),
    (2, .ll), (1, .lu), (1, .ll), (1, .lu), (1, .ll), (1, .lu), (1, .ll), (1, .lu), (1, .ll),
    (1, .lu), (1, .ll), (1, .lu), (1, .ll), (1, .lu), (1, .ll), (1, .lu), (2, .ll), (1, .lu),
    (1, .ll), (1, .lu), (1, .ll), (1, .lu), (1, .ll), (1, .lu), (1, .ll), (1, .lu), (1, .ll),
    (1, .lu), (1, .ll), (1, .lu), (1, .ll), (1, .lu), (1, .ll), (1, .lu), (1, .ll), (1, .lu),
    (1, .ll), (1, .lu), (1, .ll), (1, .lu), (1, .ll), (1, .lu), (1, .ll), (1, .lu), (1, .ll),
    (1, .lu), (1, .ll), (1, .lu), (1, .ll), (1, .lu), (1, .ll), (1, .lu), (1, .ll), (1, .lu),
    (1, .ll), (1, .lu), (1, .ll), (1, .lu), (1, .ll), (1, .lu), (1, .ll), (1, .lu), (1, .ll),
    (2, .lu), (1, .ll), (1, .lu), (1, .ll), (1, .lu), (3, .ll), (2, .lu), (1, .ll), (1, .lu),
    (1, .ll), (2, .lu), (1, .ll), (3, .lu), (2, .ll), (4, .lu), (1, .ll), (2, .lu), (1, .ll),
    (3, .lu), (3, .ll), (2, .lu), (1, .ll), (2, .lu), (1, .ll), (1, .lu), (1, .ll), (1, .lu),
    (1, .ll), (2, .lu), (1, .ll), (1, .lu), (2, .ll), (1, .lu), (1, .ll), (2, .lu), (1, .ll),
    (3, .lu), (1, .ll), (1, .lu), (1, .ll), (2, .lu), (2, .ll), (1, .lo), (1, .lu), (3, .ll),
    (4, .lo), (1, .lu), (1, .lt), (1, .ll), (1, .lu), (1, .lt), (1, .ll), (1, .lu), (1, .lt),
    (1, .ll), (1, .lu), (1, .ll), (1, .lu), (1, .ll), (1, .lu), (1, .ll), (1, .lu), (1, .ll),
    (1, .lu), (1, .ll), (1, .lu), (1, .ll), (1, .lu), (1, .ll), (1, .lu), (2, .ll), (1, .lu),
    (1, .ll), (1, .lu), (1, .ll), (1, .lu), (1, .ll), (1, .lu), (1, .ll), (1, .lu), (1, .ll),
    (1, .lu), (1, .ll), (1, .lu), (1, .ll), (1, .lu), (1, .ll), (1, .lu), (2, .ll), (1, .lu),
    (1, .lt), (1, .ll), (1, .lu), (1, .ll), (3, .lu), (1, .ll), (1, .lu), (1, .ll), (1, .lu),
    (1, .ll), (1, .lu), (1, .ll), (1, .lu), (1, .ll), (1, .lu), (1, .ll), (1, .lu), (1, .ll),
    (1, .lu), (1, .ll), (1, .lu), (1, .ll), (1, .lu), (1, .ll), (1, .lu), (1, .ll), (1, .lu),
    (1, .ll), (1, .lu), (1, .ll), (1, .lu), (1, .ll), (1, .lu), (1, .ll), (1, .lu), (1, .ll),
    (1, .lu), (1, .ll), (1, .lu), (1, .ll), (1, .lu), (1, .ll), (1, .lu), (1, .ll), (1, .lu),
    (1, .ll), (1, .lu), (1, .ll), (1, .lu), (1, .ll), (1, .lu), (1, .ll), (1, .lu), (1, .ll),
    (1, .lu), (1, .ll), (1, .lu), (1, .ll), (1, .lu), (1, .ll), (1, .lu), (1, .ll), (1, .lu),
    (7, .ll), (2, .lu), (1, .ll), (2, .lu), (2, .ll), (1, .lu), (1, .ll), (4, .lu), (1, .ll),
    (1, .lu), (1, .ll), (1, .lu), (1, .ll), (1, .lu), (1, .ll), (1, .lu), (69, .ll), (1, .lo),
    (27, .ll), (18, .lm), (4, .sk), (12, .lm), (14, .sk), (5, .lm), (7, .sk), (1, .lm),
    (1, .sk), (1, .lm), (17, .sk), (112, .mn), (1, .lu), (1, .ll), (1, .lu), (1, .ll),
    (1, .lm), (1, .sk), (1, .lu), (1, .ll), (2, .cn), (1, .lm), (3, .ll), (1, .po), (1, .lu),
    (4, .cn), (2, .sk), (1, .lu), (1, .po), (3, .lu), (1, .cn), (1, .lu), (1, .cn), (2, .lu),
    (1, .ll), (17, .lu), (1, .cn), (9, .lu), (35, .ll), (1, .lu), (2, .ll), (3, .lu),
    (3, .ll), (1, .lu), (1, .ll), (1, .lu), (1, .ll), (1, .lu), (1, .ll), (1, .lu), (1, .ll),
    (1, .lu), (1, .ll), (1, .lu), (1, .ll), (1, .lu), (1, .ll), (1, .lu), (1, .ll), (1, .lu),
    (1, .ll), (1, .lu), (1, .ll), (1, .lu), (1, .ll), (1, .lu), (5, .ll), (1, .lu), (1, .ll),
    (1, .sm), (1, .lu), (1, .ll), (2, .lu), (2, .ll), (51, .lu), (48, .ll), (1, .lu),
    (1, .ll), (1, .lu), (1, .ll), (1, .lu), (1, .ll), (1, .lu), (1, .ll), (1, .lu), (1, .ll),
    (1, .lu), (1, .ll), (1, .lu), (1, .ll), (1, .lu), (1, .ll), (1, .lu), (1, .ll), (1, .lu),
    (1, .ll), (1, .lu), (1, .ll), (1, .lu), (1, .ll), (1, .lu), (1, .ll), (1, .lu), (1, .ll),
    (1, .lu), (1, .ll), (1, .lu), (1, .ll), (1, .lu), (1, .ll), (1, .so), (5, .mn), (2, .me),
    (1, .lu), (1, .ll), (1, .lu), (1, .ll), (1, .lu), (1, .ll), (1, .lu), (1, .ll), (1, .lu),
    (1, .ll), (1, .lu), (1, .ll), (1, .lu), (1, .ll), (1, .lu), (1, .ll), (1, .lu), (1, .ll),
    (1, .lu), (1, .ll), (1, .lu), (1, .ll), (1, .lu), (1, .ll), (1, .lu), (1, .ll), (1, .lu),
    (1, .ll), (1, .lu), (1, .ll), (1, .lu), (1, .ll), (1, .lu), (1, .ll), (1, .lu), (1, .ll),
    (1, .lu), (1, .ll)
  ]

/-- Runs of equal category, part 2. -/
def runsB : Runs Category :=
  [
    (1, .lu), (1, .ll), (1, .lu), (1, .ll), (1, .lu), (1, .ll), (1, .lu), (1, .ll), (1, .lu),
    (1, .ll), (1, .lu), (1, .ll), (1, .lu), (1, .ll), (1, .lu), (1, .ll), (2, .lu), (1, .ll),
    (1, .lu), (1, .ll), (1, .lu), (1, .ll), (1, .lu), (1, .ll), (1, .lu), (1, .ll), (1, .lu),
    (1, .ll), (1, .lu), (2, .ll), (1, .lu), (1, .ll), (1, .lu), (1, .ll), (1, .lu), (1, .ll),
    (1, .lu), (1, .ll), (1, .lu), (1, .ll), (1, .lu), (1, .ll), (1, .lu), (1, .ll), (1, .lu),
    (1, .ll), (1, .lu), (1, .ll), (1, .lu), (1, .ll), (1, .lu), (1, .ll), (1, .lu), (1, .ll),
    (1, .lu), (1, .ll), (1, .lu), (1, .ll), (1, .lu), (1, .ll), (1, .lu), (1, .ll), (1, .lu),
    (1, .ll), (1, .lu), (1, .ll), (1, .lu), (1, .ll), (1, .lu), (1, .ll), (1, .lu), (1, .ll),
    (1, .lu), (1, .ll), (1, .lu), (1, .ll), (1, .lu), (1, .ll), (1, .lu), (1, .ll), (1, .lu),
    (1, .ll), (1, .lu), (1, .ll), (1, .lu), (1, .ll), (1, .lu), (1, .ll), (1, .lu), (1, .ll),
    (1, .lu), (1, .ll), (1, .lu), (1, .ll), (1, .lu), (1, .ll), (1, .lu), (1, .ll), (1, .lu),
    (1, .ll), (1, .lu), (1, .ll), (1, .lu), (1, .ll), (1, .lu), (1, .ll), (1, .lu), (1, .ll),
    (1, .lu), (1, .ll), (1, .lu), (1, .ll), (1, .lu), (1, .ll), (1, .lu), (1, .ll), (1, .lu),
    (1, .ll), (1, .lu), (1, .ll), (1, .lu), (1, .ll), (1, .lu), (1, .ll), (1, .lu), (1, .ll),
    (1, .cn), (38, .lu), (2, .cn), (1, .lm), (6, .po), (41, .ll), (1, .po), (1, .pd),
    (2, .cn), (2, .so), (1, .sc), (1, .cn), (45, .mn), (1, .pd), (1, .mn), (1, .po), (2, .mn),
    (1, .po), (2, .mn), (1, .po), (1, .mn), (8, .cn), (27, .lo), (4, .cn), (4, .lo), (2, .po),
    (11, .cn), (6, .cf), (3, .sm), (2, .po), (1, .sc), (2, .po), (2, .so), (11, .mn),
    (1, .po), (1, .cf), (3, .po), (32, .lo), (1, .lm), (10, .lo), (21, .mn), (10, .nd),
    (4, .po), (2, .lo), (1, .mn), (99, .lo), (1, .po), (1, .lo), (7, .mn), (1, .cf), (1, .so),
    (6, .mn), (2, .lm), (2, .mn), (1, .so), (4, .mn), (2, .lo), (10, .nd), (3, .lo), (2, .so),
    (1, .lo), (14, .po), (1, .cn), (1, .cf), (1, .lo), (1, .mn), (30, .lo), (27, .mn),
    (2, .cn), (89, .lo), (11, .mn), (1, .lo), (14, .cn), (10, .nd), (33, .lo), (9, .mn),
    (2, .lm), (1, .so), (3, .po), (1, .lm), (2, .cn), (1, .mn), (2, .sc), (22, .lo), (4, .mn),
    (1, .lm), (9, .mn), (1, .lm), (3, .mn), (1, .lm), (5, .mn), (2, .cn), (15, .po), (1, .cn),
    (25, .lo), (3, .mn), (2, .cn), (1, .po), (1, .cn), (11, .lo), (5, .cn), (24, .lo),
    (1, .sk), (6, .lo), (1, .cn), (2, .cf), (6, .cn), (8, .mn), (41, .lo), (1, .lm),
    (24, .mn), (1, .cf), (32, .mn), (1, .mc), (54, .lo), (1, .mn), (1, .mc), (1, .mn),
    (1, .lo), (3, .mc), (8, .mn), (4, .mc), (1, .mn), (2, .mc), (1, .lo), (7, .mn), (10, .lo),
    (2, .mn), (2, .po), (10, .nd), (1, .po), (1, .lm), (15, .lo), (1, .mn), (2, .mc),
    (1, .cn), (8, .lo), (2, .cn), (2, .lo), (2, .cn), (22, .lo), (1, .cn), (7, .lo), (1, .cn),
    (1, .lo), (3, .cn), (4, .lo), (2, .cn), (1, .mn), (1, .lo), (3, .mc), (4, .mn), (2, .cn),
    (2, .mc), (2, .cn), (2, .mc), (1, .mn), (1, .lo), (8, .cn), (1, .mc), (4, .cn), (2, .lo),
    (1, .cn), (3, .lo), (2, .mn), (2, .cn), (10, .nd), (2, .lo), (2, .sc), (6, .no), (1, .so),
    (1, .sc), (1, .lo), (1, .po), (1, .mn), (2, .cn), (2, .mn), (1, .mc), (1, .cn), (6, .lo),
    (4, .cn), (2, .lo), (2, .cn), (22, .lo), (1, .cn), (7, .lo), (1, .cn), (2, .lo), (1, .cn),
    (2, .lo), (1, .cn), (2, .lo), (2, .cn), (1, .mn), (1, .cn), (3, .mc), (2, .mn), (4, .cn),
    (2, .mn), (2, .cn), (3, .mn), (3, .cn), (1, .mn), (7, .cn), (4, .lo), (1, .cn), (1, .lo),
    (7, .cn), (10, .nd), (2, .mn), (3, .lo), (1, .mn), (1, .po), (10, .cn), (2, .mn),
    (1, .mc), (1, .cn), (9, .lo), (1, .cn), (3, .lo), (1, .cn), (22, .lo), (1, .cn), (7, .lo),
    (1, .cn), (2, .lo), (1, .cn), (5, .lo), (2, .cn), (1, .mn), (1, .lo), (3, .mc), (5, .mn),
    (1, .cn), (2, .mn), (1, .mc), (1, .cn), (2, .mc), (1, .mn), (2, .cn), (1, .lo), (15, .cn),
    (2, .lo), (2, .mn), (2, .cn), (10, .nd), (1, .po), (1, .sc), (7, .cn), (1, .lo), (6, .mn),
    (1, .cn), (1, .mn), (2, .mc), (1, .cn), (8, .lo), (2, .cn), (2, .lo), (2, .cn), (22, .lo),
    (1, .cn), (7, .lo), (1, .cn), (2, .lo), (1, .cn), (5, .lo), (2, .cn), (1, .mn), (1, .lo),
    (1, .mc), (1, .mn), (1, .mc), (4, .mn), (2, .cn), (2, .mc), (2, .cn), (2, .mc), (1, .mn),
    (7, .cn), (2, .mn), (1, .mc), (4, .cn), (2, .lo), (1, .cn), (3, .lo), (2, .mn), (2, .cn),
    (10, .nd), (1, .so), (1, .lo), (6, .no), (10, .cn), (1, .mn), (1, .lo), (1, .cn),
    (6, .lo), (3, .cn), (3, .lo), (1, .cn), (4, .lo), (3, .cn), (2, .lo), (1, .cn), (1, .lo),
    (1, .cn), (2, .lo), (3, .cn), (2, .lo), (3, .cn), (3, .lo), (3, .cn), (12, .lo), (4, .cn),
    (2, .mc), (1, .mn), (2, .mc), (3, .cn), (3, .mc), (1, .cn), (3, .mc), (1, .mn), (2, .cn),
    (1, .lo), (6, .cn), (1, .mc), (14, .cn), (10, .nd), (3, .no), (6, .so), (1, .sc),
    (1, .so), (5, .cn), (1, .mn), (3, .mc), (1, .mn), (8, .lo), (1, .cn), (3, .lo), (1, .cn),
    (23, .lo), (1, .cn), (16, .lo), (2, .cn), (1, .mn), (1, .lo), (3, .mn), (4, .mc),
    (1, .cn), (3, .mn), (1, .cn), (4, .mn), (7, .cn), (2, .mn), (1, .cn), (3, .lo), (2, .cn),
    (1, .lo), (2, .cn), (2, .lo), (2, .mn), (2, .cn), (10, .nd), (7, .cn), (1, .po), (7, .no),
    (1, .so), (1, .lo), (1, .mn), (2, .mc), (1, .po), (8, .lo), (1, .cn), (3, .lo), (1, .cn)
  ]

/-- Runs of equal category, part 3. -/
def runsC : Runs Category :=
  [
    (23, .lo), (1, .cn), (10, .lo), (1, .cn), (5, .lo), (2, .cn), (1, .mn), (1, .lo),
    (1, .mc), (1, .mn), (5, .mc), (1, .cn), (1, .mn), (2, .mc), (1, .cn), (2, .mc), (2, .mn),
    (7, .cn), (2, .mc), (6, .cn), (2, .lo), (1, .cn), (2, .lo), (2, .mn), (2, .cn), (10, .nd),
    (1, .cn), (2, .lo), (1, .mc), (12, .cn), (2, .mn), (2, .mc), (9, .lo), (1, .cn), (3, .lo),
    (1, .cn), (41, .lo), (2, .mn), (1, .lo), (3, .mc), (4, .mn), (1, .cn), (3, .mc), (1, .cn),
    (3, .mc), (1, .mn), (1, .lo), (1, .so), (4, .cn), (3, .lo), (1, .mc), (7, .no), (3, .lo),
    (2, .mn), (2, .cn), (10, .nd), (9, .no), (1, .so), (6, .lo), (1, .cn), (1, .mn), (2, .mc),
    (1, .cn), (18, .lo), (3, .cn), (24, .lo), (1, .cn), (9, .lo), (1, .cn), (1, .lo),
    (2, .cn), (7, .lo), (3, .cn), (1, .mn), (4, .cn), (3, .mc), (3, .mn), (1, .cn), (1, .mn),
    (1, .cn), (8, .mc), (6, .cn), (10, .nd), (2, .cn), (2, .mc), (1, .po), (12, .cn),
    (48, .lo), (1, .mn), (2, .lo), (7, .mn), (4, .cn), (1, .sc), (6, .lo), (1, .lm), (8, .mn),
    (1, .po), (10, .nd), (2, .po), (37, .cn), (2, .lo), (1, .cn), (1, .lo), (1, .cn),
    (5, .lo), (1, .cn), (24, .lo), (1, .cn), (1, .lo), (1, .cn), (10, .lo), (1, .mn),
    (2, .lo), (9, .mn), (1, .lo), (2, .cn), (5, .lo), (1, .cn), (1, .lm), (1, .cn), (7, .mn),
    (1, .cn), (10, .nd), (2, .cn), (4, .lo), (32, .cn), (1, .lo), (3, .so), (15, .po),
    (1, .so), (1, .po), (3, .so), (2, .mn), (6, .so), (10, .nd), (10, .no), (1, .so),
    (1, .mn), (1, .so), (1, .mn), (1, .so), (1, .mn), (1, .ps), (1, .pe), (1, .ps), (1, .pe),
    (2, .mc), (8, .lo), (1, .cn), (36, .lo), (4, .cn), (14, .mn), (1, .mc), (5, .mn),
    (1, .po), (2, .mn), (5, .lo), (11, .mn), (1, .cn), (36, .mn), (1, .cn), (8, .so),
    (1, .mn), (6, .so), (1, .cn), (2, .so), (5, .po), (4, .so), (2, .po), (37, .cn),
    (43, .lo), (2, .mc), (4, .mn), (1, .mc), (6, .mn), (1, .mc), (2, .mn), (2, .mc), (2, .mn),
    (1, .lo), (10, .nd), (6, .po), (6, .lo), (2, .mc), (2, .mn), (4, .lo), (3, .mn), (1, .lo),
    (3, .mc), (2, .lo), (7, .mc), (3, .lo), (4, .mn), (13, .lo), (1, .mn), (2, .mc), (2, .mn),
    (6, .mc), (1, .mn), (1, .lo), (1, .mc), (10, .nd), (3, .mc), (1, .mn), (2, .so),
    (38, .lu), (1, .cn), (1, .lu), (5, .cn), (1, .lu), (2, .cn), (43, .ll), (1, .po),
    (1, .lm), (3, .ll), (329, .lo), (1, .cn), (4, .lo), (2, .cn), (7, .lo), (1, .cn),
    (1, .lo), (1, .cn), (4, .lo), (2, .cn), (41, .lo), (1, .cn), (4, .lo), (2, .cn),
    (33, .lo), (1, .cn), (4, .lo), (2, .cn), (7, .lo), (1, .cn), (1, .lo), (1, .cn), (4, .lo),
    (2, .cn), (15, .lo), (1, .cn), (57, .lo), (1, .cn), (4, .lo), (2, .cn), (67, .lo),
    (2, .cn), (3, .mn), (9, .po), (20, .no), (3, .cn), (16, .lo), (10, .so), (6, .cn),
    (86, .lu), (2, .cn), (6, .ll), (2, .cn), (1, .pd), (620, .lo), (1, .so), (1, .po),
    (17, .lo), (1, .zs), (26, .lo), (1, .ps), (1, .pe), (3, .cn), (75, .lo), (3, .po),
    (3, .nl), (8, .lo), (7, .cn), (18, .lo), (3, .mn), (1, .mc), (9, .cn), (19, .lo),
    (2, .mn), (1, .mc), (2, .po), (9, .cn), (18, .lo), (2, .mn), (12, .cn), (13, .lo),
    (1, .cn), (3, .lo), (1, .cn), (2, .mn), (12, .cn), (52, .lo), (2, .mn), (1, .mc),
    (7, .mn), (8, .mc), (1, .mn), (2, .mc), (11, .mn), (3, .po), (1, .lm), (3, .po), (1, .sc),
    (1, .lo), (1, .mn), (2, .cn), (10, .nd), (6, .cn), (10, .no), (6, .cn), (6, .po),
    (1, .pd), (4, .po), (3, .mn), (1, .cf), (1, .mn), (10, .nd), (6, .cn), (35, .lo),
    (1, .lm), (53, .lo), (7, .cn), (5, .lo), (2, .mn), (34, .lo), (1, .mn), (1, .lo),
    (5, .cn), (70, .lo), (10, .cn), (31, .lo), (1, .cn), (3, .mn), (4, .mc), (2, .mn),
    (3, .mc), (4, .cn), (2, .mc), (1, .mn), (6, .mc), (3, .mn), (4, .cn), (1, .so), (3, .cn),
    (2, .po), (10, .nd), (30, .lo), (2, .cn), (5, .lo), (11, .cn), (44, .lo), (4, .cn),
    (26, .lo), (6, .cn), (10, .nd), (1, .no), (3, .cn), (34, .so), (23, .lo), (2, .mn),
    (2, .mc), (1, .mn), (2, .cn), (2, .po), (53, .lo), (1, .mc), (1, .mn), (1, .mc), (7, .mn),
    (1, .cn), (1, .mn), (1, .mc), (1, .mn), (2, .mc), (8, .mn), (6, .mc), (10, .mn), (2, .cn),
    (1, .mn), (10, .nd), (6, .cn), (10, .nd), (6, .cn), (7, .po), (1, .lm), (6, .po),
    (2, .cn), (14, .mn), (1, .me), (16, .mn), (49, .cn), (4, .mn), (1, .mc), (47, .lo),
    (1, .mn), (1, .mc), (5, .mn), (1, .mc), (1, .mn), (5, .mc), (1, .mn), (2, .mc), (8, .lo),
    (3, .cn), (10, .nd), (7, .po), (10, .so), (9, .mn), (9, .so), (2, .po), (1, .cn),
    (2, .mn), (1, .mc), (30, .lo), (1, .mc), (4, .mn), (2, .mc), (2, .mn), (1, .mc), (3, .mn),
    (2, .lo), (10, .nd), (44, .lo), (1, .mn), (1, .mc), (2, .mn), (3, .mc), (1, .mn),
    (1, .mc), (3, .mn), (2, .mc), (8, .cn), (4, .po), (36, .lo), (8, .mc), (8, .mn), (2, .mc),
    (2, .mn), (3, .cn), (5, .po), (10, .nd), (3, .cn), (3, .lo), (10, .nd), (30, .lo),
    (6, .lm), (2, .po), (9, .ll), (7, .cn), (43, .lu), (2, .cn), (3, .lu), (8, .po), (8, .cn),
    (3, .mn), (1, .po), (13, .mn), (1, .mc), (7, .mn), (4, .lo), (1, .mn), (6, .lo), (1, .mn),
    (2, .lo), (1, .mc), (2, .mn), (1, .lo), (5, .cn), (44, .ll), (63, .lm), (13, .ll),
    (1, .lm), (34, .ll), (37, .lm), (64, .mn), (1, .lu), (1, .ll), (1, .lu), (1, .ll),
    (1, .lu), (1, .ll), (1, .lu), (1, .ll), (1, .lu), (1, .ll), (1, .lu), (1, .ll), (1, .lu),
    (1, .ll), (1, .lu), (1, .ll), (1, .lu), (1, .ll), (1, .lu), (1, .ll), (1, .lu), (1, .ll),
    (1, .lu), (1, .ll), (1, .lu)
  ]

/-- Runs of equal category, part 4. -/
def runsD : Runs Category :=
  [
    (1, .ll), (1, .lu), (1, .ll), (1, .lu), (1, .ll), (1, .lu), (1, .ll), (1, .lu), (1, .ll),
    (1, .lu), (1, .ll), (1, .lu), (1, .ll), (1, .lu), (1, .ll), (1, .lu), (1, .ll), (1, .lu),
    (1, .ll), (1, .lu), (1, .ll), (1, .lu), (1, .ll), (1, .lu), (1, .ll), (1, .lu), (1, .ll),
    (1, .lu), (1, .ll), (1, .lu), (1, .ll), (1, .lu), (1, .ll), (1, .lu), (1, .ll), (1, .lu),
    (1, .ll), (1, .lu), (1, .ll), (1, .lu), (1, .ll), (1, .lu), (1, .ll), (1, .lu), (1, .ll),
    (1, .lu), (1, .ll), (1, .lu), (1, .ll), (1, .lu), (1, .ll), (1, .lu), (1, .ll), (1, .lu),
    (1, .ll), (1, .lu), (1, .ll), (1, .lu), (1, .ll), (1, .lu), (1, .ll), (1, .lu), (1, .ll),
    (1, .lu), (1, .ll), (1, .lu), (1, .ll), (1, .lu), (1, .ll), (1, .lu), (1, .ll), (1, .lu),
    (1, .ll), (1, .lu), (1, .ll), (1, .lu), (1, .ll), (1, .lu), (1, .ll), (1, .lu), (1, .ll),
    (1, .lu), (1, .ll), (1, .lu), (1, .ll), (1, .lu), (1, .ll), (1, .lu), (1, .ll), (1, .lu),
    (1, .ll), (1, .lu), (1, .ll), (1, .lu), (1, .ll), (1, .lu), (1, .ll), (1, .lu), (1, .ll),
    (1, .lu), (1, .ll), (1, .lu), (1, .ll), (1, .lu), (1, .ll), (1, .lu), (1, .ll), (1, .lu),
    (1, .ll), (1, .lu), (1, .ll), (1, .lu), (1, .ll), (1, .lu), (1, .ll), (1, .lu), (1, .ll),
    (1, .lu), (1, .ll), (1, .lu), (1, .ll), (1, .lu), (1, .ll), (1, .lu), (9, .ll), (1, .lu),
    (1, .ll), (1, .lu), (1, .ll), (1, .lu), (1, .ll), (1, .lu), (1, .ll), (1, .lu), (1, .ll),
    (1, .lu), (1, .ll), (1, .lu), (1, .ll), (1, .lu), (1, .ll), (1, .lu), (1, .ll), (1, .lu),
    (1, .ll), (1, .lu), (1, .ll), (1, .lu), (1, .ll), (1, .lu), (1, .ll), (1, .lu), (1, .ll),
    (1, .lu), (1, .ll), (1, .lu), (1, .ll), (1, .lu), (1, .ll), (1, .lu), (1, .ll), (1, .lu),
    (1, .ll), (1, .lu), (1, .ll), (1, .lu), (1, .ll), (1, .lu), (1, .ll), (1, .lu), (1, .ll),
    (1, .lu), (1, .ll), (1, .lu), (1, .ll), (1, .lu), (1, .ll), (1, .lu), (1, .ll), (1, .lu),
    (1, .ll), (1, .lu), (1, .ll), (1, .lu), (1, .ll), (1, .lu), (1, .ll), (1, .lu), (1, .ll),
    (1, .lu), (1, .ll), (1, .lu), (1, .ll), (1, .lu), (1, .ll), (1, .lu), (1, .ll), (1, .lu),
    (1, .ll), (1, .lu), (1, .ll), (1, .lu), (1, .ll), (1, .lu), (1, .ll), (1, .lu), (1, .ll),
    (1, .lu), (1, .ll), (1, .lu), (1, .ll), (1, .lu), (1, .ll), (1, .lu), (1, .ll), (1, .lu),
    (1, .ll), (1, .lu), (1, .ll), (1, .lu), (1, .ll), (1, .lu), (9, .ll), (8, .lu), (6, .ll),
    (2, .cn), (6, .lu), (2, .cn), (8, .ll), (8, .lu), (8, .ll), (8, .lu), (6, .ll), (2, .cn),
    (6, .lu), (2, .cn), (8, .ll), (1, .cn), (1, .lu), (1, .cn), (1, .lu), (1, .cn), (1, .lu),
    (1, .cn), (1, .lu), (8, .ll), (8, .lu), (14, .ll), (2, .cn), (8, .ll), (8, .lt), (8, .ll),
    (8, .lt), (8, .ll), (8, .lt), (5, .ll), (1, .cn), (2, .ll), (4, .lu), (1, .lt), (1, .sk),
    (1, .ll), (3, .sk), (3, .ll), (1, .cn), (2, .ll), (4, .lu), (1, .lt), (3, .sk), (4, .ll),
    (2, .cn), (2, .ll), (4, .lu), (1, .cn), (3, .sk), (8, .ll), (5, .lu), (3, .sk), (2, .cn),
    (3, .ll), (1, .cn), (2, .ll), (4, .lu), (1, .lt), (2, .sk), (1, .cn), (11, .zs), (5, .cf),
    (6, .pd), (2, .po), (1, .pi), (1, .pf), (1, .ps), (2, .pi), (1, .pf), (1, .ps), (1, .pi),
    (8, .po), (1, .zl), (1, .zp), (5, .cf), (1, .zs), (9, .po), (1, .pi), (1, .pf), (4, .po),
    (2, .pc), (3, .po), (1, .sm), (1, .ps), (1, .pe), (11, .po), (1, .sm), (1, .po), (1, .pc),
    (10, .po), (1, .zs), (5, .cf), (1, .cn), (10, .cf), (1, .no), (1, .lm), (2, .cn),
    (6, .no), (3, .sm), (1, .ps), (1, .pe), (1, .lm), (10, .no), (3, .sm), (1, .ps), (1, .pe),
    (1, .cn), (13, .lm), (3, .cn), (33, .sc), (15, .cn), (13, .mn), (4, .me), (1, .mn),
    (3, .me), (12, .mn), (15, .cn), (2, .so), (1, .lu), (4, .so), (1, .lu), (2, .so),
    (1, .ll), (3, .lu), (2, .ll), (3, .lu), (1, .ll), (1, .so), (1, .lu), (2, .so), (1, .sm),
    (5, .lu), (6, .so), (1, .lu), (1, .so), (1, .lu), (1, .so), (1, .lu), (1, .so), (4, .lu),
    (1, .so), (1, .ll), (4, .lu), (1, .ll), (4, .lo), (1, .ll), (2, .so), (2, .ll), (2, .lu),
    (5, .sm), (1, .lu), (4, .ll), (1, .so), (1, .sm), (2, .so), (1, .ll), (1, .so), (16, .no),
    (35, .nl), (1, .lu), (1, .ll), (4, .nl), (1, .no), (2, .so), (4, .cn), (5, .sm), (5, .so),
    (2, .sm), (4, .so), (1, .sm), (2, .so), (1, .sm), (2, .so), (1, .sm), (7, .so), (1, .sm),
    (31, .so), (2, .sm), (2, .so), (1, .sm), (1, .so), (1, .sm), (31, .so), (268, .sm),
    (8, .so), (1, .ps), (1, .pe), (1, .ps), (1, .pe), (20, .so), (2, .sm), (7, .so), (1, .ps),
    (1, .pe), (81, .so), (1, .sm), (30, .so), (25, .sm), (40, .so), (6, .sm), (69, .so),
    (25, .cn), (11, .so), (21, .cn), (60, .no), (78, .so), (22, .no), (183, .so), (1, .sm),
    (9, .so), (1, .sm), (54, .so), (8, .sm), (111, .so), (1, .sm), (248, .so), (1, .ps),
    (1, .pe), (1, .ps), (1, .pe), (1, .ps), (1, .pe), (1, .ps), (1, .pe), (1, .ps), (1, .pe),
    (1, .ps), (1, .pe), (1, .ps), (1, .pe), (30, .no), (44, .so), (5, .sm), (1, .ps),
    (1, .pe), (31, .sm), (1, .ps), (1, .pe), (1, .ps), (1, .pe), (1, .ps), (1, .pe), (1, .ps),
    (1, .pe), (1, .ps), (1, .pe), (16, .sm), (256, .so), (131, .sm), (1, .ps), (1, .pe),
    (1, .ps), (1, .pe), (1, .ps), (1, .pe), (1, .ps), (1, .pe), (1, .ps), (1, .pe), (1, .ps),
    (1, .pe), (1, .ps), (1, .pe), (1, .ps), (1, .pe), (1, .ps), (1, .pe), (1, .ps), (1, .pe),
    (1, .ps), (1, .pe), (63, .sm), (1, .ps), (1, .pe)
  ]

/-- Runs of equal category, part 5. -/
def runsE : Runs Category :=
  [
    (1, .ps), (1, .pe), (32, .sm), (1, .ps), (1, .pe), (258, .sm), (48, .so), (21, .sm),
    (2, .so), (6, .sm), (39, .so), (2, .cn), (32, .so), (1, .cn), (105, .so), (48, .lu),
    (48, .ll), (1, .lu), (1, .ll), (3, .lu), (2, .ll), (1, .lu), (1, .ll), (1, .lu), (1, .ll),
    (1, .lu), (1, .ll), (4, .lu), (1, .ll), (1, .lu), (2, .ll), (1, .lu), (6, .ll), (2, .lm),
    (3, .lu), (1, .ll), (1, .lu), (1, .ll), (1, .lu), (1, .ll), (1, .lu), (1, .ll), (1, .lu),
    (1, .ll), (1, .lu), (1, .ll), (1, .lu), (1, .ll), (1, .lu), (1, .ll), (1, .lu), (1, .ll),
    (1, .lu), (1, .ll), (1, .lu), (1, .ll), (1, .lu), (1, .ll), (1, .lu), (1, .ll), (1, .lu),
    (1, .ll), (1, .lu), (1, .ll), (1, .lu), (1, .ll), (1, .lu), (1, .ll), (1, .lu), (1, .ll),
    (1, .lu), (1, .ll), (1, .lu), (1, .ll), (1, .lu), (1, .ll), (1, .lu), (1, .ll), (1, .lu),
    (1, .ll), (1, .lu), (1, .ll), (1, .lu), (1, .ll), (1, .lu), (1, .ll), (1, .lu), (1, .ll),
    (1, .lu), (1, .ll), (1, .lu), (1, .ll), (1, .lu), (1, .ll), (1, .lu), (1, .ll), (1, .lu),
    (1, .ll), (1, .lu), (1, .ll), (1, .lu), (1, .ll), (1, .lu), (1, .ll), (1, .lu), (1, .ll),
    (1, .lu), (1, .ll), (1, .lu), (1, .ll), (1, .lu), (1, .ll), (1, .lu), (1, .ll), (1, .lu),
    (1, .ll), (1, .lu), (1, .ll), (1, .lu), (1, .ll), (1, .lu), (1, .ll), (1, .lu), (1, .ll),
    (1, .lu), (1, .ll), (1, .lu), (1, .ll), (1, .lu), (1, .ll), (1, .lu), (1, .ll), (1, .lu),
    (2, .ll), (6, .so), (1, .lu), (1, .ll), (1, .lu), (1, .ll), (3, .mn), (1, .lu), (1, .ll),
    (5, .cn), (4, .po), (1, .no), (2, .po), (38, .ll), (1, .cn), (1, .ll), (5, .cn), (1, .ll),
    (2, .cn), (56, .lo), (7, .cn), (1, .lm), (1, .po), (14, .cn), (1, .mn), (23, .lo),
    (9, .cn), (7, .lo), (1, .cn), (7, .lo), (1, .cn), (7, .lo), (1, .cn), (7, .lo), (1, .cn),
    (7, .lo), (1, .cn), (7, .lo), (1, .cn), (7, .lo), (1, .cn), (7, .lo), (1, .cn), (32, .mn),
    (2, .po), (1, .pi), (1, .pf), (1, .pi), (1, .pf), (3, .po), (1, .pi), (1, .pf), (1, .po),
    (1, .pi), (1, .pf), (9, .po), (1, .pd), (2, .po), (1, .pd), (1, .po), (1, .pi), (1, .pf),
    (2, .po), (1, .pi), (1, .pf), (1, .ps), (1, .pe), (1, .ps), (1, .pe), (1, .ps), (1, .pe),
    (1, .ps), (1, .pe), (5, .po), (1, .lm), (10, .po), (2, .pd), (4, .po), (1, .pd), (1, .po),
    (1, .ps), (13, .po), (2, .so), (3, .po), (1, .ps), (1, .pe), (1, .ps), (1, .pe), (1, .ps),
    (1, .pe), (1, .ps), (1, .pe), (1, .pd), (34, .cn), (26, .so), (1, .cn), (89, .so),
    (12, .cn), (214, .so), (26, .cn), (12, .so), (4, .cn), (1, .zs), (3, .po), (1, .so),
    (1, .lm), (1, .lo), (1, .nl), (1, .ps), (1, .pe), (1, .ps), (1, .pe), (1, .ps), (1, .pe),
    (1, .ps), (1, .pe), (1, .ps), (1, .pe), (2, .so), (1, .ps), (1, .pe), (1, .ps), (1, .pe),
    (1, .ps), (1, .pe), (1, .ps), (1, .pe), (1, .pd), (1, .ps), (2, .pe), (1, .so), (9, .nl),
    (4, .mn), (2, .mc), (1, .pd), (5, .lm), (2, .so), (3, .nl), (1, .lm), (1, .lo), (1, .po),
    (2, .so), (1, .cn), (86, .lo), (2, .cn), (2, .mn), (2, .sk), (2, .lm), (1, .lo), (1, .pd),
    (90, .lo), (1, .po), (3, .lm), (1, .lo), (5, .cn), (43, .lo), (1, .cn), (94, .lo),
    (1, .cn), (2, .so), (4, .no), (10, .so), (32, .lo), (36, .so), (12, .cn), (16, .lo),
    (31, .so), (1, .cn), (10, .no), (30, .so), (8, .no), (1, .so), (15, .no), (32, .so),
    (10, .no), (39, .so), (15, .no), (320, .so), (6592, .lo), (64, .so), (21013, .lo),
    (1, .lm), (1143, .lo), (3, .cn), (55, .so), (9, .cn), (40, .lo), (6, .lm), (2, .po),
    (268, .lo), (1, .lm), (3, .po), (16, .lo), (10, .nd), (2, .lo), (20, .cn), (1, .lu),
    (1, .ll), (1, .lu), (1, .ll), (1, .lu), (1, .ll), (1, .lu), (1, .ll), (1, .lu), (1, .ll),
    (1, .lu), (1, .ll), (1, .lu), (1, .ll), (1, .lu), (1, .ll), (1, .lu), (1, .ll), (1, .lu),
    (1, .ll), (1, .lu), (1, .ll), (1, .lu), (1, .ll), (1, .lu), (1, .ll), (1, .lu), (1, .ll),
    (1, .lu), (1, .ll), (1, .lu), (1, .ll), (1, .lu), (1, .ll), (1, .lu), (1, .ll), (1, .lu),
    (1, .ll), (1, .lu), (1, .ll), (1, .lu), (1, .ll), (1, .lu), (1, .ll), (1, .lu), (1, .ll),
    (1, .lo), (1, .mn), (3, .me), (1, .po), (10, .mn), (1, .po), (1, .lm), (1, .lu), (1, .ll),
    (1, .lu), (1, .ll), (1, .lu), (1, .ll), (1, .lu), (1, .ll), (1, .lu), (1, .ll), (1, .lu),
    (1, .ll), (1, .lu), (1, .ll), (1, .lu), (1, .ll), (1, .lu), (1, .ll), (1, .lu), (1, .ll),
    (1, .lu), (1, .ll), (1, .lu), (1, .ll), (1, .lu), (1, .ll), (1, .lu), (1, .ll), (2, .lm),
    (2, .mn), (70, .lo), (10, .nl), (2, .mn), (6, .po), (8, .cn), (23, .sk), (9, .lm),
    (2, .sk), (1, .lu), (1, .ll), (1, .lu), (1, .ll), (1, .lu), (1, .ll), (1, .lu), (1, .ll),
    (1, .lu), (1, .ll), (1, .lu), (1, .ll), (1, .lu), (3, .ll), (1, .lu), (1, .ll), (1, .lu),
    (1, .ll), (1, .lu), (1, .ll), (1, .lu), (1, .ll), (1, .lu), (1, .ll), (1, .lu), (1, .ll),
    (1, .lu), (1, .ll), (1, .lu), (1, .ll), (1, .lu), (1, .ll), (1, .lu), (1, .ll), (1, .lu),
    (1, .ll), (1, .lu), (1, .ll), (1, .lu), (1, .ll), (1, .lu), (1, .ll), (1, .lu), (1, .ll),
    (1, .lu), (1, .ll), (1, .lu), (1, .ll), (1, .lu), (1, .ll), (1, .lu), (1, .ll), (1, .lu),
    (1, .ll), (1, .lu), (1, .ll), (1, .lu), (1, .ll), (1, .lu), (1, .ll), (1, .lu), (1, .ll),
    (1, .lu), (1, .ll), (1, .lu), (1, .ll), (1, .lu), (1, .ll), (1, .lu), (1, .ll), (1, .lu),
    (1, .ll), (1, .lu), (1, .ll), (1, .lu), (1, .ll), (1, .lm), (8, .ll), (1, .lu), (1, .ll)
  ]

/-- Runs of equal category, part 6. -/
def runsF : Runs Category :=
  [
    (1, .lu), (1, .ll), (2, .lu), (1, .ll), (1, .lu), (1, .ll), (1, .lu), (1, .ll), (1, .lu),
    (1, .ll), (1, .lu), (1, .ll), (1, .lm), (2, .sk), (1, .lu), (1, .ll), (1, .lu), (1, .ll),
    (1, .lo), (1, .lu), (1, .ll), (1, .lu), (3, .ll), (1, .lu), (1, .ll), (1, .lu), (1, .ll),
    (1, .lu), (1, .ll), (1, .lu), (1, .ll), (1, .lu), (1, .ll), (1, .lu), (1, .ll), (1, .lu),
    (1, .ll), (1, .lu), (1, .ll), (1, .lu), (1, .ll), (1, .lu), (1, .ll), (5, .lu), (1, .ll),
    (5, .lu), (1, .ll), (1, .lu), (1, .ll), (1, .lu), (1, .ll), (1, .lu), (1, .ll), (1, .lu),
    (1, .ll), (1, .lu), (1, .ll), (1, .lu), (1, .ll), (1, .lu), (1, .ll), (4, .lu), (1, .ll),
    (1, .lu), (1, .ll), (5, .cn), (1, .lu), (1, .ll), (1, .cn), (1, .ll), (1, .cn), (1, .ll),
    (1, .lu), (1, .ll), (1, .lu), (1, .ll), (24, .cn), (3, .lm), (1, .lu), (1, .ll), (1, .lo),
    (2, .lm), (1, .ll), (7, .lo), (1, .mn), (3, .lo), (1, .mn), (4, .lo), (1, .mn), (23, .lo),
    (2, .mc), (2, .mn), (1, .mc), (4, .so), (1, .mn), (3, .cn), (6, .no), (2, .so), (1, .sc),
    (1, .so), (6, .cn), (52, .lo), (4, .po), (8, .cn), (2, .mc), (50, .lo), (16, .mc),
    (2, .mn), (8, .cn), (2, .po), (10, .nd), (6, .cn), (18, .mn), (6, .lo), (3, .po),
    (1, .lo), (1, .po), (2, .lo), (1, .mn), (10, .nd), (28, .lo), (8, .mn), (2, .po),
    (23, .lo), (11, .mn), (2, .mc), (11, .cn), (1, .po), (29, .lo), (3, .cn), (3, .mn),
    (1, .mc), (47, .lo), (1, .mn), (2, .mc), (4, .mn), (2, .mc), (2, .mn), (3, .mc),
    (13, .po), (1, .cn), (1, .lm), (10, .nd), (4, .cn), (2, .po), (5, .lo), (1, .mn),
    (1, .lm), (9, .lo), (10, .nd), (5, .lo), (1, .cn), (41, .lo), (6, .mn), (2, .mc),
    (2, .mn), (2, .mc), (2, .mn), (9, .cn), (3, .lo), (1, .mn), (8, .lo), (1, .mn), (1, .mc),
    (2, .cn), (10, .nd), (2, .cn), (4, .po), (16, .lo), (1, .lm), (6, .lo), (3, .so),
    (1, .lo), (1, .mc), (1, .mn), (1, .mc), (50, .lo), (1, .mn), (1, .lo), (3, .mn), (2, .lo),
    (2, .mn), (5, .lo), (2, .mn), (1, .lo), (1, .mn), (1, .lo), (24, .cn), (2, .lo), (1, .lm),
    (2, .po), (11, .lo), (1, .mc), (2, .mn), (2, .mc), (2, .po), (1, .lo), (2, .lm), (1, .mc),
    (1, .mn), (10, .cn), (6, .lo), (2, .cn), (6, .lo), (2, .cn), (6, .lo), (9, .cn), (7, .lo),
    (1, .cn), (7, .lo), (1, .cn), (43, .ll), (1, .sk), (4, .lm), (9, .ll), (1, .lm), (2, .sk),
    (4, .cn), (80, .ll), (35, .lo), (2, .mc), (1, .mn), (2, .mc), (1, .mn), (2, .mc),
    (1, .po), (1, .mc), (1, .mn), (2, .cn), (10, .nd), (6, .cn), (11172, .lo), (12, .cn),
    (23, .lo), (4, .cn), (49, .lo), (4, .cn), (2048, .cs), (6400, .co), (366, .lo), (2, .cn),
    (106, .lo), (38, .cn), (7, .ll), (12, .cn), (5, .ll), (5, .cn), (1, .lo), (1, .mn),
    (10, .lo), (1, .sm), (13, .lo), (1, .cn), (5, .lo), (1, .cn), (1, .lo), (1, .cn),
    (2, .lo), (1, .cn), (2, .lo), (1, .cn), (108, .lo), (17, .sk), (16, .cn), (363, .lo),
    (1, .pe), (1, .ps), (16, .so), (64, .lo), (2, .cn), (54, .lo), (7, .cn), (1, .so),
    (32, .cn), (12, .lo), (1, .sc), (3, .so), (16, .mn), (7, .po), (1, .ps), (1, .pe),
    (1, .po), (6, .cn), (16, .mn), (1, .po), (2, .pd), (2, .pc), (1, .ps), (1, .pe), (1, .ps),
    (1, .pe), (1, .ps), (1, .pe), (1, .ps), (1, .pe), (1, .ps), (1, .pe), (1, .ps), (1, .pe),
    (1, .ps), (1, .pe), (1, .ps), (1, .pe), (2, .po), (1, .ps), (1, .pe), (4, .po), (3, .pc),
    (3, .po), (1, .cn), (4, .po), (1, .pd), (1, .ps), (1, .pe), (1, .ps), (1, .pe), (1, .ps),
    (1, .pe), (3, .po), (1, .sm), (1, .pd), (3, .sm), (1, .cn), (1, .po), (1, .sc), (2, .po),
    (4, .cn), (5, .lo), (1, .cn), (135, .lo), (2, .cn), (1, .cf), (1, .cn), (3, .po),
    (1, .sc), (3, .po), (1, .ps), (1, .pe), (1, .po), (1, .sm), (1, .po), (1, .pd), (2, .po),
    (10, .nd), (2, .po), (3, .sm), (2, .po), (26, .lu), (1, .ps), (1, .po), (1, .pe),
    (1, .sk), (1, .pc), (1, .sk), (26, .ll), (1, .ps), (1, .sm), (1, .pe), (1, .sm), (1, .ps),
    (1, .pe), (1, .po), (1, .ps), (1, .pe), (2, .po), (10, .lo), (1, .lm), (45, .lo),
    (2, .lm), (31, .lo), (3, .cn), (6, .lo), (2, .cn), (6, .lo), (2, .cn), (6, .lo), (2, .cn),
    (3, .lo), (3, .cn), (2, .sc), (1, .sm), (1, .sk), (1, .so), (2, .sc), (1, .cn), (1, .so),
    (4, .sm), (2, .so), (10, .cn), (3, .cf), (2, .so), (2, .cn), (12, .lo), (1, .cn),
    (26, .lo), (1, .cn), (19, .lo), (1, .cn), (2, .lo), (1, .cn), (15, .lo), (2, .cn),
    (14, .lo), (34, .cn), (123, .lo), (5, .cn), (3, .po), (4, .cn), (45, .no), (3, .cn),
    (9, .so), (53, .nl), (4, .no), (17, .so), (2, .no), (3, .so), (1, .cn), (13, .so),
    (3, .cn), (1, .so), (47, .cn), (45, .so), (1, .mn), (130, .cn), (29, .lo), (3, .cn),
    (49, .lo), (15, .cn), (1, .mn), (27, .no), (4, .cn), (32, .lo), (4, .no), (9, .cn),
    (20, .lo), (1, .nl), (8, .lo), (1, .nl), (5, .cn), (38, .lo), (5, .mn), (5, .cn),
    (30, .lo), (1, .cn), (1, .po), (36, .lo), (4, .cn), (8, .lo), (1, .po), (5, .nl),
    (42, .cn), (40, .lu), (40, .ll), (78, .lo), (2, .cn), (10, .nd), (6, .cn), (36, .lu),
    (4, .cn), (36, .ll), (4, .cn), (40, .lo), (8, .cn), (52, .lo), (11, .cn), (1, .po),
    (11, .lu), (1, .cn), (15, .lu), (1, .cn), (7, .lu), (1, .cn), (2, .lu), (1, .cn),
    (11, .ll), (1, .cn), (15, .ll), (1, .cn), (7, .ll), (1, .cn), (2, .ll), (67, .cn),
    (311, .lo), (9, .cn), (22, .lo), (10, .cn), (8, .lo), (24, .cn), (6, .lm), (1, .cn),
    (42, .lm), (1, .cn), (9, .lm), (69, .cn), (6, .lo), (2, .cn), (1, .lo), (1, .cn),
    (44, .lo), (1, .cn)
  ]

/-- Runs of equal category, part 7. -/
def runsG : Runs Category :=
  [
    (2, .lo), (3, .cn), (1, .lo), (2, .cn), (23, .lo), (1, .cn), (1, .po), (8, .no),
    (23, .lo), (2, .so), (7, .no), (31, .lo), (8, .cn), (9, .no), (48, .cn), (19, .lo),
    (1, .cn), (2, .lo), (5, .cn), (5, .no), (22, .lo), (6, .no), (3, .cn), (1, .po),
    (26, .lo), (5, .cn), (1, .po), (64, .cn), (56, .lo), (4, .cn), (2, .no), (2, .lo),
    (16, .no), (2, .cn), (46, .no), (1, .lo), (3, .mn), (1, .cn), (2, .mn), (5, .cn),
    (4, .mn), (4, .lo), (1, .cn), (3, .lo), (1, .cn), (29, .lo), (2, .cn), (3, .mn), (4, .cn),
    (1, .mn), (9, .no), (7, .cn), (9, .po), (7, .cn), (29, .lo), (2, .no), (1, .po),
    (29, .lo), (3, .no), (32, .cn), (8, .lo), (1, .so), (28, .lo), (2, .mn), (4, .cn),
    (5, .no), (7, .po), (9, .cn), (54, .lo), (3, .cn), (7, .po), (22, .lo), (2, .cn),
    (8, .no), (19, .lo), (5, .cn), (8, .no), (18, .lo), (7, .cn), (4, .po), (12, .cn),
    (7, .no), (80, .cn), (73, .lo), (55, .cn), (51, .lu), (13, .cn), (51, .ll), (7, .cn),
    (6, .no), (36, .lo), (4, .mn), (8, .cn), (10, .nd), (294, .cn), (31, .no), (1, .cn),
    (42, .lo), (1, .cn), (2, .mn), (1, .pd), (2, .cn), (2, .lo), (75, .cn), (3, .mn),
    (29, .lo), (10, .no), (1, .lo), (8, .cn), (22, .lo), (11, .mn), (4, .no), (5, .po),
    (22, .cn), (18, .lo), (4, .mn), (4, .po), (38, .cn), (21, .lo), (7, .no), (20, .cn),
    (23, .lo), (9, .cn), (1, .mc), (1, .mn), (1, .mc), (53, .lo), (15, .mn), (7, .po),
    (4, .cn), (20, .no), (10, .nd), (1, .mn), (2, .lo), (2, .mn), (1, .lo), (9, .cn),
    (3, .mn), (1, .mc), (45, .lo), (3, .mc), (4, .mn), (2, .mc), (2, .mn), (2, .po), (1, .cf),
    (4, .po), (1, .mn), (10, .cn), (1, .cf), (2, .cn), (25, .lo), (7, .cn), (10, .nd),
    (6, .cn), (3, .mn), (36, .lo), (5, .mn), (1, .mc), (8, .mn), (1, .cn), (10, .nd),
    (4, .po), (1, .lo), (2, .mc), (1, .lo), (8, .cn), (35, .lo), (1, .mn), (2, .po), (1, .lo),
    (9, .cn), (2, .mn), (1, .mc), (48, .lo), (3, .mc), (9, .mn), (2, .mc), (4, .lo), (4, .po),
    (4, .mn), (1, .po), (1, .mc), (1, .mn), (10, .nd), (1, .lo), (1, .po), (1, .lo), (3, .po),
    (1, .cn), (20, .no), (11, .cn), (18, .lo), (1, .cn), (25, .lo), (3, .mc), (3, .mn),
    (2, .mc), (1, .mn), (1, .mc), (2, .mn), (6, .po), (1, .mn), (2, .lo), (1, .mn), (62, .cn),
    (7, .lo), (1, .cn), (1, .lo), (1, .cn), (4, .lo), (1, .cn), (15, .lo), (1, .cn),
    (10, .lo), (1, .po), (6, .cn), (47, .lo), (1, .mn), (3, .mc), (8, .mn), (5, .cn),
    (10, .nd), (6, .cn), (2, .mn), (2, .mc), (1, .cn), (8, .lo), (2, .cn), (2, .lo), (2, .cn),
    (22, .lo), (1, .cn), (7, .lo), (1, .cn), (2, .lo), (1, .cn), (5, .lo), (1, .cn), (2, .mn),
    (1, .lo), (2, .mc), (1, .mn), (4, .mc), (2, .cn), (2, .mc), (2, .cn), (3, .mc), (2, .cn),
    (1, .lo), (6, .cn), (1, .mc), (5, .cn), (5, .lo), (2, .mc), (2, .cn), (7, .mn), (3, .cn),
    (5, .mn), (139, .cn), (53, .lo), (3, .mc), (8, .mn), (2, .mc), (3, .mn), (1, .mc),
    (1, .mn), (4, .lo), (5, .po), (10, .nd), (2, .po), (1, .cn), (1, .po), (1, .mn), (3, .lo),
    (30, .cn), (48, .lo), (3, .mc), (6, .mn), (1, .mc), (1, .mn), (4, .mc), (2, .mn),
    (1, .mc), (2, .mn), (2, .lo), (1, .po), (1, .lo), (8, .cn), (10, .nd), (166, .cn),
    (47, .lo), (3, .mc), (4, .mn), (2, .cn), (4, .mc), (2, .mn), (1, .mc), (2, .mn),
    (23, .po), (4, .lo), (2, .mn), (34, .cn), (48, .lo), (3, .mc), (8, .mn), (2, .mc),
    (1, .mn), (1, .mc), (2, .mn), (3, .po), (1, .lo), (11, .cn), (10, .nd), (6, .cn),
    (13, .po), (19, .cn), (43, .lo), (1, .mn), (1, .mc), (1, .mn), (2, .mc), (6, .mn),
    (1, .mc), (1, .mn), (1, .lo), (1, .po), (6, .cn), (10, .nd), (54, .cn), (27, .lo),
    (2, .cn), (3, .mn), (2, .mc), (4, .mn), (1, .mc), (5, .mn), (4, .cn), (10, .nd), (2, .no),
    (3, .po), (1, .so), (7, .lo), (185, .cn), (44, .lo), (3, .mc), (9, .mn), (1, .mc),
    (2, .mn), (1, .po), (100, .cn), (32, .lu), (32, .ll), (10, .nd), (9, .no), (12, .cn),
    (8, .lo), (2, .cn), (1, .lo), (2, .cn), (8, .lo), (1, .cn), (2, .lo), (1, .cn), (24, .lo),
    (6, .mc), (1, .cn), (2, .mc), (2, .cn), (2, .mn), (1, .mc), (1, .mn), (1, .lo), (1, .mc),
    (1, .lo), (1, .mc), (1, .mn), (3, .po), (9, .cn), (10, .nd), (70, .cn), (8, .lo),
    (2, .cn), (39, .lo), (3, .mc), (4, .mn), (2, .cn), (2, .mn), (4, .mc), (1, .mn), (1, .lo),
    (1, .po), (1, .lo), (1, .mc), (27, .cn), (1, .lo), (10, .mn), (40, .lo), (6, .mn),
    (1, .mc), (1, .lo), (4, .mn), (8, .po), (1, .mn), (8, .cn), (1, .lo), (6, .mn), (2, .mc),
    (3, .mn), (46, .lo), (13, .mn), (1, .mc), (2, .mn), (3, .po), (1, .lo), (5, .po),
    (13, .cn), (73, .lo), (7, .cn), (10, .po), (246, .cn), (9, .lo), (1, .cn), (37, .lo),
    (1, .mc), (7, .mn), (1, .cn), (6, .mn), (1, .mc), (1, .mn), (1, .lo), (5, .po), (10, .cn),
    (10, .nd), (19, .no), (3, .cn), (2, .po), (30, .lo), (2, .cn), (22, .mn), (1, .cn),
    (1, .mc), (7, .mn), (1, .mc), (2, .mn), (1, .mc), (2, .mn), (73, .cn), (7, .lo), (1, .cn),
    (2, .lo), (1, .cn), (38, .lo), (6, .mn), (3, .cn), (1, .mn), (1, .cn), (2, .mn), (1, .cn),
    (7, .mn), (1, .lo), (1, .mn), (8, .cn), (10, .nd), (6, .cn), (6, .lo), (1, .cn), (2, .lo),
    (1, .cn), (32, .lo), (5, .mc), (1, .cn), (2, .mn), (1, .cn), (2, .mc), (1, .mn), (1, .mc),
    (1, .mn), (1, .lo), (7, .cn), (10, .nd), (310, .cn), (19, .lo), (2, .mn), (2, .mc),
    (2, .po), (7, .cn), (2, .mn), (1, .lo), (1, .mc), (13, .lo), (1, .cn), (34, .lo),
    (2, .mc), (5, .mn), (3, .cn), (2, .mc), (1, .mn), (1, .mc), (1, .mn)
  ]

/-- Runs of equal category, part 8. -/
def runsH : Runs Category :=
  [
    (13, .po), (10, .nd), (86, .cn), (1, .lo), (15, .cn), (21, .no), (8, .so), (4, .sc),
    (17, .so), (13, .cn), (1, .po), (922, .lo), (102, .cn), (111, .nl), (1, .cn), (5, .po),
    (11, .cn), (196, .lo), (2636, .cn), (97, .lo), (2, .po), (13, .cn), (1072, .lo),
    (16, .cf), (1, .mn), (6, .lo), (15, .mn), (4010, .cn), (583, .lo), (8633, .cn),
    (569, .lo), (7, .cn), (31, .lo), (1, .cn), (10, .nd), (4, .cn), (2, .po), (79, .lo),
    (1, .cn), (10, .nd), (6, .cn), (30, .lo), (2, .cn), (5, .mn), (1, .po), (10, .cn),
    (48, .lo), (7, .mn), (5, .po), (4, .so), (4, .lm), (1, .po), (1, .so), (10, .cn),
    (10, .nd), (1, .cn), (7, .no), (1, .cn), (21, .lo), (5, .cn), (19, .lo), (688, .cn),
    (32, .lu), (32, .ll), (23, .no), (4, .po), (101, .cn), (75, .lo), (4, .cn), (1, .mn),
    (1, .lo), (55, .mc), (7, .cn), (4, .mn), (13, .lm), (64, .cn), (2, .lm), (1, .po),
    (1, .lm), (1, .mn), (11, .cn), (2, .mc), (14, .cn), (6136, .lo), (8, .cn), (1238, .lo),
    (42, .cn), (9, .lo), (8935, .cn), (4, .lm), (1, .cn), (7, .lm), (1, .cn), (2, .lm),
    (1, .cn), (291, .lo), (15, .cn), (1, .lo), (29, .cn), (3, .lo), (2, .cn), (1, .lo),
    (14, .cn), (4, .lo), (8, .cn), (396, .lo), (2308, .cn), (107, .lo), (5, .cn), (13, .lo),
    (3, .cn), (9, .lo), (7, .cn), (10, .lo), (2, .cn), (1, .so), (2, .mn), (1, .po), (4, .cf),
    (4700, .cn), (46, .mn), (2, .cn), (23, .mn), (9, .cn), (116, .so), (60, .cn), (246, .so),
    (10, .cn), (39, .so), (2, .cn), (60, .so), (2, .mc), (3, .mn), (3, .so), (6, .mc),
    (8, .cf), (8, .mn), (2, .so), (7, .mn), (30, .so), (4, .mn), (61, .so), (21, .cn),
    (66, .so), (3, .mn), (1, .so), (122, .cn), (20, .no), (12, .cn), (20, .no), (12, .cn),
    (87, .so), (9, .cn), (25, .no), (135, .cn), (26, .lu), (26, .ll), (26, .lu), (7, .ll),
    (1, .cn), (18, .ll), (26, .lu), (26, .ll), (1, .lu), (1, .cn), (2, .lu), (2, .cn),
    (1, .lu), (2, .cn), (2, .lu), (2, .cn), (4, .lu), (1, .cn), (8, .lu), (4, .ll), (1, .cn),
    (1, .ll), (1, .cn), (7, .ll), (1, .cn), (11, .ll), (26, .lu), (26, .ll), (2, .lu),
    (1, .cn), (4, .lu), (2, .cn), (8, .lu), (1, .cn), (7, .lu), (1, .cn), (26, .ll), (2, .lu),
    (1, .cn), (4, .lu), (1, .cn), (5, .lu), (1, .cn), (1, .lu), (3, .cn), (7, .lu), (1, .cn),
    (26, .ll), (26, .lu), (26, .ll), (26, .lu), (26, .ll), (26, .lu), (26, .ll), (26, .lu),
    (26, .ll), (26, .lu), (26, .ll), (26, .lu), (28, .ll), (2, .cn), (25, .lu), (1, .sm),
    (25, .ll), (1, .sm), (6, .ll), (25, .lu), (1, .sm), (25, .ll), (1, .sm), (6, .ll),
    (25, .lu), (1, .sm), (25, .ll), (1, .sm), (6, .ll), (25, .lu), (1, .sm), (25, .ll),
    (1, .sm), (6, .ll), (25, .lu), (1, .sm), (25, .ll), (1, .sm), (6, .ll), (1, .lu),
    (1, .ll), (2, .cn), (50, .nd), (512, .so), (55, .mn), (4, .so), (50, .mn), (8, .so),
    (1, .mn), (14, .so), (1, .mn), (2, .so), (5, .po), (15, .cn), (5, .mn), (1, .cn),
    (15, .mn), (1104, .cn), (10, .ll), (1, .lo), (20, .ll), (6, .cn), (6, .ll), (213, .cn),
    (7, .mn), (1, .cn), (17, .mn), (2, .cn), (7, .mn), (1, .cn), (2, .mn), (1, .cn), (5, .mn),
    (5, .cn), (62, .lm), (33, .cn), (1, .mn), (112, .cn), (45, .lo), (3, .cn), (7, .mn),
    (7, .lm), (2, .cn), (10, .nd), (4, .cn), (1, .lo), (1, .so), (320, .cn), (30, .lo),
    (1, .mn), (17, .cn), (44, .lo), (4, .mn), (10, .nd), (5, .cn), (1, .sc), (464, .cn),
    (27, .lo), (1, .lm), (4, .mn), (10, .nd), (742, .cn), (7, .lo), (1, .cn), (4, .lo),
    (1, .cn), (2, .lo), (1, .cn), (15, .lo), (1, .cn), (197, .lo), (2, .cn), (9, .no),
    (7, .mn), (41, .cn), (34, .lu), (34, .ll), (7, .mn), (1, .lm), (4, .cn), (10, .nd),
    (4, .cn), (2, .po), (785, .cn), (59, .no), (1, .so), (3, .no), (1, .sc), (4, .no),
    (76, .cn), (45, .no), (1, .so), (15, .no), (194, .cn), (4, .lo), (1, .cn), (27, .lo),
    (1, .cn), (2, .lo), (1, .cn), (1, .lo), (2, .cn), (1, .lo), (1, .cn), (10, .lo), (1, .cn),
    (4, .lo), (1, .cn), (1, .lo), (1, .cn), (1, .lo), (6, .cn), (1, .lo), (4, .cn), (1, .lo),
    (1, .cn), (1, .lo), (1, .cn), (1, .lo), (1, .cn), (3, .lo), (1, .cn), (2, .lo), (1, .cn),
    (1, .lo), (2, .cn), (1, .lo), (1, .cn), (1, .lo), (1, .cn), (1, .lo), (1, .cn), (1, .lo),
    (1, .cn), (1, .lo), (1, .cn), (2, .lo), (1, .cn), (1, .lo), (2, .cn), (4, .lo), (1, .cn),
    (7, .lo), (1, .cn), (4, .lo), (1, .cn), (4, .lo), (1, .cn), (1, .lo), (1, .cn), (10, .lo),
    (1, .cn), (17, .lo), (5, .cn), (3, .lo), (1, .cn), (5, .lo), (1, .cn), (17, .lo),
    (52, .cn), (2, .sm), (270, .cn), (44, .so), (4, .cn), (100, .so), (12, .cn), (15, .so),
    (2, .cn), (15, .so), (1, .cn), (15, .so), (1, .cn), (37, .so), (10, .cn), (13, .no),
    (161, .so), (56, .cn), (29, .so), (13, .cn), (44, .so), (4, .cn), (9, .so), (7, .cn),
    (2, .so), (14, .cn), (6, .so), (154, .cn), (251, .so), (5, .sk), (728, .so), (4, .cn),
    (17, .so), (3, .cn), (13, .so), (3, .cn), (119, .so), (4, .cn), (95, .so), (6, .cn),
    (12, .so), (4, .cn), (1, .so), (15, .cn), (12, .so), (4, .cn), (56, .so), (8, .cn),
    (10, .so), (6, .cn), (40, .so), (8, .cn), (30, .so), (2, .cn), (2, .so), (78, .cn),
    (340, .so), (12, .cn), (14, .so), (2, .cn), (13, .so), (3, .cn), (9, .so), (7, .cn),
    (46, .so), (1, .cn), (7, .so), (8, .cn), (14, .so), (4, .cn), (9, .so), (7, .cn),
    (9, .so), (7, .cn), (147, .so), (1, .cn), (55, .so), (37, .cn), (10, .nd), (1030, .cn),
    (42720, .lo), (32, .cn), (4154, .lo), (6, .cn), (222, .lo), (2, .cn), (5762, .lo),
    (14, .cn), (7473, .lo), (3103, .cn), (542, .lo), (1506, .cn), (4939, .lo), (5, .cn),
    (4192, .lo), (711761, .cn), (1, .cf), (30, .cn), (96, .cf)
  ]

/-- Runs of equal category, part 9. -/
def runsI : Runs Category :=
  [
    (128, .cn), (240, .mn), (65040, .cn), (65534, .co), (2, .cn), (65534, .co), (2, .cn)
  ]

def runs : Runs Category :=
  runsA ++ runsB ++ runsC ++ runsD ++ runsE ++ runsF ++ runsG ++ runsH ++ runsI

/-- The category of a character. -/
def ofChar (c : Char) : Category := (runs.valueAt? c.toNat).getD .cn

/-! ## Names

A name stands for a set of categories: itself, or all that share its first letter. -/

/-- The names that a set of categories goes by, each as letters alone. -/
def names : List (List String × List Category) :=
  [
    (["c", "other"], [.cc, .cf, .cs, .co, .cn]),
    (["l", "letter"], [.lu, .ll, .lt, .lm, .lo]),
    (["lc", "casedletter"], [.lu, .ll, .lt]),
    (["m", "mark", "combiningmark"], [.mn, .mc, .me]),
    (["n", "number"], [.nd, .nl, .no]),
    (["p", "punctuation", "punct"], [.pc, .pd, .ps, .pe, .pi, .pf, .po]),
    (["s", "symbol"], [.sm, .sc, .sk, .so]),
    (["z", "separator"], [.zs, .zl, .zp]),
    (["cc", "control", "cntrl"], [.cc]),
    (["cf", "format"], [.cf]),
    (["cn", "unassigned"], [.cn]),
    (["co", "privateuse"], [.co]),
    (["cs", "surrogate"], [.cs]),
    (["ll", "lowercaseletter"], [.ll]),
    (["lm", "modifierletter"], [.lm]),
    (["lo", "otherletter"], [.lo]),
    (["lt", "titlecaseletter"], [.lt]),
    (["lu", "uppercaseletter"], [.lu]),
    (["mc", "spacingmark"], [.mc]),
    (["me", "enclosingmark"], [.me]),
    (["mn", "nonspacingmark"], [.mn]),
    (["nd", "decimalnumber", "digit"], [.nd]),
    (["nl", "letternumber"], [.nl]),
    (["no", "othernumber"], [.no]),
    (["pc", "connectorpunctuation"], [.pc]),
    (["pd", "dashpunctuation"], [.pd]),
    (["pe", "closepunctuation"], [.pe]),
    (["pf", "finalpunctuation"], [.pf]),
    (["pi", "initialpunctuation"], [.pi]),
    (["po", "otherpunctuation"], [.po]),
    (["ps", "openpunctuation"], [.ps]),
    (["sc", "currencysymbol"], [.sc]),
    (["sk", "modifiersymbol"], [.sk]),
    (["sm", "mathsymbol"], [.sm]),
    (["so", "othersymbol"], [.so]),
    (["zl", "lineseparator"], [.zl]),
    (["zp", "paragraphseparator"], [.zp]),
    (["zs", "spaceseparator"], [.zs])
  ]

/-- The categories that a name stands for. -/
def named? (name : String) : Option (List Category) :=
  (names.find? fun entry => entry.1.contains name).map (·.2)

end Category

end TreeRules.Text
