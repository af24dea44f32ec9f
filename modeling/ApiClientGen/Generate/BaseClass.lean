import ApiClientGen.Text.Lines

/-!
The class that all client classes extend: it builds URLs, sends requests and reads replies. It is
the same for every service.
-/
namespace ApiClientGen.Generate

def baseFile : String := "Api.ts"

def baseLines : List String := [
  "export interface IOperationOptions \x7b",
  "  headers?: Record<string, string>;",
  "  signal?: AbortSignal;",
  "\x7d",
  "",
  "export interface IApiOptions \x7b",
  "  url: string;",
  "  token?: string;",
  "\x7d",
  "",
  "export interface IRequestOptions extends IOperationOptions \x7b",
  "  method: string;",
  "  path: string;",
  "  params?: Record<string, unknown>;",
  "  query?: Record<string, unknown>;",
  "  headerParams?: Record<string, unknown>;",
  "  body?: Record<string, unknown>;",
  "  form?: Record<string, unknown>;",
  "\x7d",
  "",
  "export class ApiError extends Error \x7b",
  "  constructor(public readonly status: number, public readonly body: unknown) \x7b",
  "    super(`Request failed with status $\x7bstatus\x7d`);",
  "  \x7d",
  "\x7d",
  "",
  "export class Api \x7b",
  "  protected readonly url: string;",
  "  protected readonly token?: string;",
  "",
  "  constructor(options: IApiOptions) \x7b",
  "    this.url = options.url.replace(/\\/+$/, '');",
  "    this.token = options.token;",
  "  \x7d",
  "",
  "  protected buildUrl(path: string, params?: Record<string, unknown>, " ++
    "query?: Record<string, unknown>): string \x7b",
  "    const resolved = path.replace(/\\\x7b(\\w+)\\\x7d/g, (match, name: string) => \x7b",
  "      const value = params ? params[name] : undefined;",
  "      return value === undefined ? match : encodeURIComponent(String(value));",
  "    \x7d);",
  "",
  "    const search = new URLSearchParams();",
  "",
  "    for (const [key, value] of Object.entries(query || \x7b\x7d)) \x7b",
  "      if (value === undefined || value === null) \x7b",
  "        continue;",
  "      \x7d",
  "",
  "      if (Array.isArray(value)) \x7b",
  "        value.forEach(item => search.append(key, String(item)));",
  "      \x7d else \x7b",
  "        search.append(key, String(value));",
  "      \x7d",
  "    \x7d",
  "",
  "    const qs = search.toString();",
  "",
  "    return `$\x7bthis.url\x7d$\x7bresolved\x7d$\x7bqs ? `?$\x7bqs\x7d` : ''\x7d`;",
  "  \x7d",
  "",
  "  protected async requestJson<T>(options: IRequestOptions): Promise<T> \x7b",
  "    const headers: Record<string, string> = \x7b",
  "      Accept: 'application/json',",
  "      ...options.headers,",
  "    \x7d;",
  "",
  "    for (const [key, value] of Object.entries(options.headerParams || \x7b\x7d)) \x7b",
  "      if (value !== undefined && value !== null) \x7b",
  "        headers[key] = String(value);",
  "      \x7d",
  "    \x7d",
  "",
  "    if (this.token) \x7b",
  "      headers.Authorization = `Bearer $\x7bthis.token\x7d`;",
  "    \x7d",
  "",
  "    let body: string | undefined;",
  "",
  "    if (options.form) \x7b",
  "      headers['Content-Type'] = 'application/x-www-form-urlencoded';",
  "      body = new URLSearchParams(",
  "        Object.entries(options.form).map(([key, value]) => [key, String(value)]),",
  "      ).toString();",
  "    \x7d else if (options.body) \x7b",
  "      // Swagger 1.2 allows at most one body parameter; its value is the payload",
  "      const [payload] = Object.values(options.body);",
  "",
  "      headers['Content-Type'] = 'application/json';",
  "      body = JSON.stringify(payload);",
  "    \x7d",
  "",
  "    const res = await fetch(this.buildUrl(options.path, options.params, options.query), \x7b",
  "      method: options.method,",
  "      headers,",
  "      body,",
  "      signal: options.signal,",
  "    \x7d);",
  "",
  "    const text = await res.text();",
  "    const data = text ? JSON.parse(text) : undefined;",
  "",
  "    if (!res.ok) \x7b",
  "      throw new ApiError(res.status, data);",
  "    \x7d",
  "",
  "    return data as T;",
  "  \x7d",
  "\x7d"]

def baseText : String := Text.unlines baseLines

end ApiClientGen.Generate
